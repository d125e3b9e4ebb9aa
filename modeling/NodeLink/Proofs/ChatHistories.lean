import NodeLink.Proofs.SupportChats

/-!
# A conversation told by its answers

Everything a conversation is can be told from what was asked and answered: what
was said, the bearer handed out last, the notice agreed to in the browser that
was opened last, and whether it was ended. `Talk` keeps that and no tables; the
tables keep to it on every run. The identifiers of conversations are random
UUIDs, so one is drawn once.
-/

namespace NodeLink.Proofs.ChatHistories

open Lib Server SupportChats

variable {s : ChatSettings} {lib : ChatLib} {env : ChatEnv}
variable {t t' : ChatTables} {turns : List ChatTurn} {turn : ChatTurn}
variable {log : ChatLog} {id : String}

/-- What its answers tell of a conversation. -/
structure Talk where
  /-- What was said, and the technician who said it. -/
  said : List (MessageOut × Option String) := []
  /-- The last bearer, and when it lapses. -/
  bearer : Option (String × Int) := none
  /-- The notice agreed to since an end user opened the conversation. -/
  noticed : Option String := none
  ended : Bool := false

/-- The conversation an answer tells something about. -/
def about : ChatRequest → ChatReply → Option String
  | .openChat _ _ _, .opened id _ => some id
  | .openTechnicianChat _ _ drawn _, .opened id _ =>
      if drawn = id then some id else none
  | .heartbeat _, .launch launch => launch.map Prod.fst
  | .notice id _ _ _, .acknowledged => some id
  | .send id _ _ _, .message _ => some id
  | .refresh id _ _ _, .token _ _ => some id
  | .reply _ id _, .message _ => some id
  | .close _ id, .closed => some id
  | _, _ => none

/-- The technician who speaks. -/
def speaker : ChatRequest → Option String
  | .reply operator _ _ => some operator.id
  | _ => none

/-- What an answer adds. -/
def Talk.told (lib : ChatLib) (talk : Talk) (turn : ChatTurn) :
    ChatReply → Talk
  | .opened _ (some token) =>
      { talk with
        bearer := some (token, turn.env.now + turn.settings.tokenTtl)
        noticed := none }
  | .opened id none =>
      let expires := turn.env.now + turn.settings.tokenTtl
      { talk with bearer := some (lib.launchToken id expires, expires) }
  | .launch (some (_, token)) =>
      { talk with
        bearer := talk.bearer.map fun (_, expires) =>
          (token,
            if expires ≤ turn.env.now then
              turn.env.now + turn.settings.tokenTtl
            else expires) }
  | .acknowledged =>
      { talk with noticed := some turn.settings.noticeVersion }
  | .message m =>
      { talk with said := talk.said ++ [(m, speaker turn.request)] }
  | .token token expires => { talk with bearer := some (token, expires) }
  | .closed => { talk with ended := true }
  | _ => talk

def Talk.next (lib : ChatLib) (id : String) (talk : Talk)
    (entry : ChatTurn × Except ChatFailure ChatReply) : Talk :=
  match entry.2 with
  | .error _ => talk
  | .ok reply =>
      if about entry.1.request reply = some id then talk.told lib entry.1 reply
      else talk

def talkOf (lib : ChatLib) (id : String) (log : ChatLog) : Talk :=
  log.foldl (Talk.next lib id) {}

/-- The identifier a request draws for the conversation it may open. -/
def draws : ChatRequest → Option String
  | .openChat _ id _ => some id
  | .openTechnicianChat _ _ id _ => some id
  | _ => none

def drawn (turns : List ChatTurn) : List String :=
  turns.filterMap fun turn => draws turn.request

theorem talkOf_concat (entry : ChatTurn × Except ChatFailure ChatReply) :
    talkOf lib id (log ++ [entry]) = (talkOf lib id log).next lib id entry := by
  rw [talkOf, List.foldl_append, talkOf]
  rfl

theorem talkOf_error {f : ChatFailure} :
    talkOf lib id (log ++ [(turn, .error f)]) = talkOf lib id log := by
  rw [talkOf_concat]
  rfl

theorem talkOf_about {reply : ChatReply}
    (h : about turn.request reply = some id) :
    talkOf lib id (log ++ [(turn, .ok reply)]) =
      (talkOf lib id log).told lib turn reply := by
  rw [talkOf_concat]
  exact if_pos h

theorem talkOf_other {reply : ChatReply}
    (h : about turn.request reply ≠ some id) :
    talkOf lib id (log ++ [(turn, .ok reply)]) = talkOf lib id log := by
  rw [talkOf_concat]
  exact if_neg h

theorem drawn_concat : drawn (turns ++ [turn]) =
    drawn turns ++ (draws turn.request).toList := by
  unfold drawn
  rw [List.filterMap_append]
  cases h : draws turn.request <;> simp [h]

/-! ## The tables keep to it -/

/-- A row says what was told. -/
structure Agrees (lib : ChatLib) (t : ChatTables) (c : SupportConversation)
    (talk : Talk) : Prop where
  said : transcriptOf t c.id = talk.said
  bearer : c.status = .opened → ∃ token,
    talk.bearer = some (token, c.tokenExpiresAt) ∧
      c.tokenHash = lib.hashToken token
  version : c.noticeVersion = talk.noticed
  moment : c.noticeAcknowledgedAt.isSome = talk.noticed.isSome
  ended : talk.ended = decide (c.status = .closed)

/-- The tables after a run say what was told in it. -/
structure Tells (lib : ChatLib) (turns : List ChatTurn) (log : ChatLog)
    (t : ChatTables) : Prop where
  rows : ∀ c ∈ t.conversations, Agrees lib t c (talkOf lib c.id log)
  known : ∀ c ∈ t.conversations, c.id ∈ drawn turns
  untold : ∀ id, id ∉ drawn turns → talkOf lib id log = {}

theorem tells_nil : Tells lib [] [] {} where
  rows _ h := absurd h List.not_mem_nil
  known _ h := absurd h List.not_mem_nil
  untold _ _ := rfl

theorem Agrees.of_said {c : SupportConversation} {talk : Talk}
    (h : Agrees lib t c talk)
    (hsaid : transcriptOf t' c.id = transcriptOf t c.id) :
    Agrees lib t' c talk :=
  ⟨hsaid.trans h.said, h.bearer, h.version, h.moment, h.ended⟩

theorem drawn_mono (h : id ∈ drawn turns) : id ∈ drawn (turns ++ [turn]) := by
  rw [drawn_concat]
  exact List.mem_append_left _ h

theorem Tells.error (h : Tells lib turns log t) (turn : ChatTurn)
    (f : ChatFailure) :
    Tells lib (turns ++ [turn]) (log ++ [(turn, .error f)]) t where
  rows c hc := by
    rw [talkOf_error]
    exact h.rows c hc
  known c hc := drawn_mono (h.known c hc)
  untold id hid := by
    rw [talkOf_error]
    exact h.untold id fun hmem => hid (drawn_mono hmem)

/-- An answer that tells nothing. -/
theorem Tells.keep (h : Tells lib turns log t) {reply : ChatReply}
    (habout : about turn.request reply = none)
    (hrows : ∀ c ∈ t'.conversations, c ∈ t.conversations ∧
      transcriptOf t' c.id = transcriptOf t c.id) :
    Tells lib (turns ++ [turn]) (log ++ [(turn, .ok reply)]) t' where
  rows c hc := by
    obtain ⟨hmem, hsaid⟩ := hrows c hc
    rw [talkOf_other (by rw [habout]; nofun)]
    exact (h.rows c hmem).of_said hsaid
  known c hc := drawn_mono (h.known c (hrows c hc).1)
  untold id hid := by
    rw [talkOf_other (by rw [habout]; nofun)]
    exact h.untold id fun hmem => hid (drawn_mono hmem)

/-- An answer about one conversation: the other rows stay. -/
theorem Tells.edit (h : Tells lib turns log t) {reply : ChatReply}
    (habout : about turn.request reply = some id)
    (hdrawn : id ∈ drawn (turns ++ [turn]))
    (hrows : ∀ c ∈ t'.conversations, c.id ≠ id → c ∈ t.conversations ∧
      transcriptOf t' c.id = transcriptOf t c.id)
    (hrow : ∀ c ∈ t'.conversations, c.id = id →
      Agrees lib t' c ((talkOf lib id log).told lib turn reply)) :
    Tells lib (turns ++ [turn]) (log ++ [(turn, .ok reply)]) t' where
  rows c hc := by
    by_cases hid : c.id = id
    · rw [hid, talkOf_about habout]
      exact hrow c hc hid
    · obtain ⟨hmem, hsaid⟩ := hrows c hc hid
      have hother : about turn.request reply ≠ some c.id := fun he =>
        hid (Option.some.inj (he.symm.trans habout))
      rw [talkOf_other hother]
      exact (h.rows c hmem).of_said hsaid
  known c hc := by
    by_cases hid : c.id = id
    · rw [hid]
      exact hdrawn
    · exact drawn_mono (h.known c (hrows c hc hid).1)
  untold id' hid := by
    have hother : about turn.request reply ≠ some id' := fun he =>
      hid (Option.some.inj (habout.symm.trans he) ▸ hdrawn)
    rw [talkOf_other hother]
    exact h.untold id' fun hmem => hid (drawn_mono hmem)

/-- A row is written anew. -/
theorem Tells.put (h : Tells lib turns log t) {reply : ChatReply}
    {c d : SupportConversation} (hc : c ∈ t.conversations) (hid : d.id = c.id)
    (habout : about turn.request reply = some c.id)
    (hagrees : Agrees lib t c (talkOf lib c.id log) →
      Agrees lib t d ((talkOf lib c.id log).told lib turn reply))
    (trail : List ChatEvent) :
    Tells lib (turns ++ [turn]) (log ++ [(turn, .ok reply)])
      { t.put d with trail } := by
  refine h.edit habout (drawn_mono (h.known c hc)) ?_ ?_
  · intro x hx hne
    rcases mem_put hx with rfl | ⟨hx, -⟩
    · exact absurd hid hne
    · exact ⟨hx, rfl⟩
  · intro x hx hxid
    rcases mem_put hx with rfl | ⟨-, hne⟩
    · exact (hagrees (h.rows c hc)).of_said rfl
    · exact absurd (hxid.trans hid.symm) hne

/-- A row is added, under an identifier that was not drawn before. -/
theorem Tells.insert (h : Tells lib turns log t) (hsound : ChatSound t)
    {reply : ChatReply} {c : SupportConversation}
    (hnew : c.id ∉ drawn turns) (hdraws : draws turn.request = some c.id)
    (habout : about turn.request reply = some c.id)
    (hagrees : Agrees lib {} c (({} : Talk).told lib turn reply))
    (trail : List ChatEvent) :
    Tells lib (turns ++ [turn]) (log ++ [(turn, .ok reply)])
      ⟨t.conversations ++ [c], t.messages, trail⟩ := by
  have hsilent : transcriptOf t c.id = [] := by
    refine List.map_eq_nil_iff.mpr (List.filter_eq_nil_iff.mpr ?_)
    intro m hm hid
    obtain ⟨d, hd, hdid⟩ := hsound.held m hm
    rw [decide_eq_true_eq] at hid
    exact hnew (hid ▸ hdid ▸ h.known d hd)
  refine h.edit habout ?_ ?_ ?_
  · rw [drawn_concat, hdraws]
    exact List.mem_append_right _ List.mem_cons_self
  · intro x hx hne
    rcases List.mem_append.mp hx with hx | hx
    · exact ⟨hx, rfl⟩
    · exact absurd (congrArg (·.id) (List.mem_singleton.mp hx)) hne
  · intro x hx hxid
    rcases List.mem_append.mp hx with hx | hx
    · exact absurd (hxid ▸ h.known x hx) hnew
    · rw [List.mem_singleton.mp hx, h.untold c.id hnew]
      exact hagrees.of_said hsilent

/-- A message is stored, and the row is written anew. -/
theorem Tells.say (h : Tells lib turns log t) {m : SupportMessage}
    {c : SupportConversation} {now : Int} {subject : Option String}
    (hc : c ∈ t.conversations) (hm : m.conversationID = c.id)
    (habout : about turn.request (.message m.out) = some c.id)
    (hspeaker : m.operatorID = speaker turn.request)
    (trail : List ChatEvent) :
    Tells lib (turns ++ [turn]) (log ++ [(turn, .ok (.message m.out))])
      { withMessage t (spokenRow c now subject) m with trail } := by
  have hsay : ∀ id, transcriptOf
      { withMessage t (spokenRow c now subject) m with trail } id =
      transcriptOf t id ++ if m.conversationID = id then [words m] else [] :=
    transcriptOf_say t m
  refine h.edit habout (drawn_mono (h.known c hc)) ?_ ?_
  · intro x hx hne
    rcases mem_put hx with rfl | ⟨hx, -⟩
    · exact absurd rfl hne
    · refine ⟨hx, ?_⟩
      rw [hsay, if_neg fun he => hne (he.symm.trans hm), List.append_nil]
  · intro x hx hxid
    rcases mem_put hx with rfl | ⟨-, hne⟩
    · have hagrees := h.rows c hc
      refine ⟨?_, hagrees.bearer, hagrees.version, hagrees.moment,
        hagrees.ended⟩
      rw [hsay, if_pos (hm.trans hxid.symm), hxid, hagrees.said]
      exact congrArg (fun op => (talkOf lib c.id log).said ++ [(m.out, op)])
        hspeaker
    · exact absurd hxid hne

/-- What is told stands in the row already. -/
theorem Tells.same (h : Tells lib turns log t) (hsound : ChatSound t)
    {reply : ChatReply} {c : SupportConversation} (hc : c ∈ t.conversations)
    (habout : about turn.request reply = some c.id)
    (hagrees : Agrees lib t c (talkOf lib c.id log) →
      Agrees lib t c ((talkOf lib c.id log).told lib turn reply)) :
    Tells lib (turns ++ [turn]) (log ++ [(turn, .ok reply)]) t := by
  refine h.edit habout (drawn_mono (h.known c hc)) (fun x hx _ => ⟨hx, rfl⟩) ?_
  intro x hx hxid
  rw [hsound.eq_of_id hx hc hxid]
  exact hagrees (h.rows c hc)

theorem technicianRow_eq (s : ChatSettings) (lib : ChatLib) (now : Int)
    (agentID id token clientID : String) :
    technicianRow s lib now agentID id token clientID =
      { userRow s lib now agentID id token clientID with
        openedBy := .technician
        tokenHash := lib.hashToken (lib.launchToken id (now + s.tokenTtl))
        tokenExpiresAt := now + s.tokenTtl } := by
  have hlater : ¬ now + s.tokenTtl ≤ now := by
    have := s.ttlBounds.1
    unfold ChatSettings.tokenTtl
    omega
  unfold technicianRow technicianLaunch userRow
  simp only [if_neg hlater]

/-- An answer keeps the tables and what was told in step. -/
theorem Tells.step (h : Tells lib turns log t) (hsound : ChatSound t)
    {reply : ChatReply}
    (hstep : Served turn.settings lib turn.env t turn.request reply t')
    (hfresh : ∀ id, draws turn.request = some id → id ∉ drawn turns) :
    Tells lib (turns ++ [turn]) (log ++ [(turn, .ok reply)]) t' := by
  obtain ⟨s, env, req⟩ := turn
  simp only at hstep hfresh
  have hself : ∀ c ∈ t.conversations,
      c ∈ t.conversations ∧ transcriptOf t c.id = transcriptOf t c.id :=
    fun c hc => ⟨hc, rfl⟩
  cases hstep with
  | opened clientID idle fresh =>
      refine h.insert hsound (c := userRow s lib env.now _ _ _ clientID)
        (hfresh _ rfl) rfl rfl ?_ _
      exact ⟨rfl, fun _ => ⟨_, rfl, rfl⟩, rfl, rfl, rfl⟩
  | reopened member opened agent =>
      refine h.put (d := reopenedRow s lib env.now _ _) member rfl rfl ?_ _
      intro ha
      exact ⟨ha.said, fun _ => ⟨_, rfl, rfl⟩, rfl, rfl, ha.ended⟩
  | technicianOpened clientID idle fresh =>
      refine h.insert hsound (c := technicianRow s lib env.now _ _ _ clientID)
        (hfresh _ rfl) rfl ?_ ?_ _
      · exact if_pos rfl
      · rw [technicianRow_eq]
        exact ⟨rfl, fun _ => ⟨_, rfl, rfl⟩, rfl, rfl, rfl⟩
  | technicianFound member opened agent =>
      refine h.keep (if_neg ?_) hself
      rintro rfl
      exact hfresh _ rfl (h.known _ member)
  | @launched agentID c minted member opened waiting only =>
      refine h.put (d := (technicianLaunch s lib env.now c).2) member rfl rfl
        ?_ _
      intro ha
      obtain ⟨token, hbearer, -⟩ := ha.bearer opened
      refine ⟨ha.said, fun _ => ⟨_, ?_, rfl⟩, ha.version, ha.moment, ha.ended⟩
      exact congrArg (Option.map _) hbearer
  | beat => exact h.keep rfl hself
  | polled member start bearer => exact h.keep rfl hself
  | @agreed c scheme token member opened bearer already =>
      refine h.same hsound member rfl fun ha => ?_
      rw [SupportConversation.acknowledged, Bool.and_eq_true,
        decide_eq_true_eq] at already
      exact ⟨ha.said, ha.bearer, already.1, already.2, ha.ended⟩
  | @acknowledged c scheme token member opened bearer =>
      refine h.put (d := { c with
        noticeVersion := some s.noticeVersion
        noticeAcknowledgedAt := some env.now }) member rfl rfl ?_ _
      intro ha
      exact ⟨ha.said, ha.bearer, rfl, rfl, ha.ended⟩
  | sent writable bearer noticed =>
      exact h.say writable.member rfl rfl rfl _
  | refreshed member opened bearer =>
      refine h.put (d := rotate s lib env.now _ _) member rfl rfl ?_ _
      intro ha
      exact ⟨ha.said, fun _ => ⟨_, rfl, rfl⟩, ha.version, ha.moment, ha.ended⟩
  | shown member =>
      exact h.keep rfl fun c hc => ⟨hc, transcriptOf_markRead t _ _ _⟩
  | @replied operator c body subject writable =>
      obtain ⟨trail, heq⟩ := join_tables (withMessage t
        (spokenRow c env.now subject) (storedMessage lib t env.now c body
          .technician (some operator.id))) c.id operator.id
      rw [heq]
      exact h.say writable.member rfl rfl rfl trail
  | alreadyClosed member closed =>
      refine h.same hsound member rfl fun ha => ?_
      exact ⟨ha.said, ha.bearer, ha.version, ha.moment,
        (decide_eq_true closed).symm⟩
  | closed member opened =>
      refine h.put (d := closedRow env.now _ _) member rfl rfl ?_ _
      intro ha
      exact ⟨ha.said, nofun, ha.version, ha.moment, rfl⟩
  | pruned =>
      obtain ⟨ids, -, heq⟩ := prune_eq s t env.now
      refine h.keep rfl fun c hc => ?_
      rw [heq] at hc ⊢
      obtain ⟨hmem, hout⟩ := List.mem_filter.mp hc
      refine ⟨hmem, ?_⟩
      rw [transcriptOf, messagesOf_without, if_neg (of_decide_eq_true hout),
        transcriptOf]

/-- However the requests come, the tables say what was told. -/
theorem tells_run (lib : ChatLib) (hids : (drawn turns).Nodup) :
    Tells lib turns (ChatState.serveAll lib ([], {}) turns).1
      (ChatState.serveAll lib ([], {}) turns).2.tables := by
  induction turns using List.reverseRecOn with
  | nil => exact tells_nil
  | append_singleton turns turn ih =>
      rw [drawn_concat, List.nodup_append] at hids
      obtain ⟨hbefore, -, hapart⟩ := hids
      have htells := ih hbefore
      have hsound :
          ChatSound (ChatState.serveAll lib ([], {}) turns).2.tables :=
        sound_run sound_empty turns
      rw [serveAll_concat]
      cases hreply : ((ChatState.serveAll lib ([], {}) turns).2.serve
        turn.settings lib turn.env turn.request).1 with
      | error f =>
          rw [serve_error hreply]
          exact htells.error turn f
      | ok reply =>
          refine htells.step hsound (serve_ok hreply) fun id hid hold => ?_
          exact hapart id hold id (by rw [hid]; exact List.mem_cons_self) rfl

/-! ## What a browser hears -/

theorem Agrees.numbered {c : SupportConversation} {talk : Talk}
    (h : Agrees lib t c talk) (hsound : ChatSound t) :
    NumberedFrom (·.seq) 0 (talk.said.map Prod.fst) := by
  rw [← h.said, transcriptOf, List.map_map, numberedFrom_map]
  exact hsound.numbered c.id

theorem Agrees.acknowledged {c : SupportConversation} {talk : Talk}
    (h : Agrees lib t c talk) (s : ChatSettings) :
    c.acknowledged s = decide (talk.noticed = some s.noticeVersion) := by
  unfold SupportConversation.acknowledged
  rw [h.moment, h.version]
  by_cases hnoticed : talk.noticed = some s.noticeVersion <;> simp [hnoticed]

/-- A poll is answered with what was said after its cursor. -/
theorem poll_answer (htells : Tells lib turns log t) (hsound : ChatSound t)
    {scheme token : String} {after : Int} {acknowledged : Bool}
    {ms : List MessageOut}
    (h : Served s lib env t (.messages id scheme token after)
      (.messages acknowledged ms) t') :
    NumberedFrom (·.seq) 0 ((talkOf lib id log).said.map Prod.fst) ∧
      acknowledged =
        decide ((talkOf lib id log).noticed = some s.noticeVersion) ∧
      ms = if acknowledged then
          (above (·.seq) after ((talkOf lib id log).said.map Prod.fst)).take
            s.maxMessages
        else [] := by
  cases h with
  | polled member start bearer =>
      rename_i c
      have hagrees := htells.rows c member
      refine ⟨hagrees.numbered hsound, hagrees.acknowledged s, ?_⟩
      have hsorted : ((t.messagesOf c.id).filter fun m =>
          decide (after < m.seq)).Pairwise bySeq :=
        ((hsound.numbered c.id).pairwise.imp fun h => Int.le_of_lt h).filter _
      have hout : ((t.messagesOf c.id).filter fun m =>
          decide (after < m.seq)).map (·.out) =
          above (·.seq) after ((talkOf lib c.id log).said.map Prod.fst) := by
        rw [← hagrees.said, transcriptOf, List.map_map, above, List.filter_map]
        rfl
      rw [hsorted.insertionSort_eq, List.map_take, hout]

/-- What a browser holds that puts together what it is answered. It asks after
the last message it holds. -/
def hears (id : String) (held : List MessageOut)
    (entry : ChatTurn × Except ChatFailure ChatReply) : List MessageOut :=
  match entry.1.request, entry.2 with
  | .messages id' _ _ after, .ok (.messages _ ms) =>
      if id' = id ∧ after = lastNumber (·.seq) 0 held then held ++ ms else held
  | _, _ => held

def heard (id : String) (log : ChatLog) : List MessageOut :=
  log.foldl (hears id) []

theorem heard_concat (entry : ChatTurn × Except ChatFailure ChatReply) :
    heard id (log ++ [entry]) = hears id (heard id log) entry := by
  rw [heard, List.foldl_append, heard]
  rfl

theorem said_next (lib : ChatLib) (id : String) (talk : Talk)
    (entry : ChatTurn × Except ChatFailure ChatReply) :
    talk.said <+: (talk.next lib id entry).said := by
  obtain ⟨turn, f | reply⟩ := entry
  · exact List.prefix_refl _
  · unfold Talk.next
    simp only []
    split
    · unfold Talk.told
      split
      · exact List.prefix_refl _
      · exact List.prefix_refl _
      · exact List.prefix_refl _
      · exact List.prefix_refl _
      · exact List.prefix_append _ _
      · exact List.prefix_refl _
      · exact List.prefix_refl _
      · exact List.prefix_refl _
    · exact List.prefix_refl _

theorem hears_cases (id : String) (held : List MessageOut)
    (entry : ChatTurn × Except ChatFailure ChatReply) :
    hears id held entry = held ∨ ∃ scheme token acknowledged ms,
      entry.1.request =
        .messages id scheme token (lastNumber (·.seq) 0 held) ∧
      entry.2 = .ok (.messages acknowledged ms) ∧
      hears id held entry = held ++ ms := by
  unfold hears
  split
  · next hreq hreply =>
      split
      · next hhere =>
          obtain ⟨rfl, rfl⟩ := hhere
          exact .inr ⟨_, _, _, _, hreq, hreply, rfl⟩
      · exact .inl rfl
  · exact .inl rfl

/-- Past a prefix stands the rest of a numbered list. -/
theorem append_above {held said : List MessageOut}
    (hnum : NumberedFrom (·.seq) 0 said) (hpre : held <+: said) :
    held ++ above (·.seq) (lastNumber (·.seq) 0 held) said = said := by
  obtain ⟨rest, rfl⟩ := hpre
  obtain ⟨hheld, hrest⟩ := numberedFrom_append.mp hnum
  rw [hheld.lastNumber_eq, above_append_of_le fun m hm => (hheld.bounds hm).2,
    hrest.above_eq_self (Int.le_refl _)]

/-- Only what was said is heard, in order and once. -/
theorem heard_run (lib : ChatLib) (hids : (drawn turns).Nodup) (id : String) :
    heard id (ChatState.serveAll lib ([], {}) turns).1 <+:
      (talkOf lib id (ChatState.serveAll lib ([], {}) turns).1).said.map
        Prod.fst := by
  induction turns using List.reverseRecOn with
  | nil => exact List.nil_prefix
  | append_singleton turns turn ih =>
      rw [drawn_concat, List.nodup_append] at hids
      have hheld := ih hids.1
      have htells := tells_run lib hids.1
      have hsound :
          ChatSound (ChatState.serveAll lib ([], {}) turns).2.tables :=
        sound_run sound_empty turns
      rw [serveAll_concat, talkOf_concat, heard_concat]
      generalize ChatState.serveAll lib ([], {}) turns = start at *
      obtain ⟨log, st⟩ := start
      simp only at hheld htells hsound ⊢
      refine List.IsPrefix.trans ?_ ((said_next lib id (talkOf lib id log)
        (turn, (st.serve turn.settings lib turn.env turn.request).1)).map
          Prod.fst)
      obtain hsame | ⟨scheme, token, acknowledged, ms, hreq, hreply, happ⟩ :=
        hears_cases id (heard id log)
          (turn, (st.serve turn.settings lib turn.env turn.request).1)
      · rw [hsame]
        exact hheld
      · have hserved := serve_ok hreply
        rw [hreq] at hserved
        obtain ⟨hnum, -, hms⟩ := poll_answer htells hsound hserved
        rw [happ, hms]
        split
        · have htake := (List.prefix_append_right_inj (heard id log)).mpr
            (List.take_prefix turn.settings.maxMessages (above (·.seq)
              (lastNumber (·.seq) 0 (heard id log))
              ((talkOf lib id log).said.map Prod.fst)))
          rw [append_above hnum hheld] at htake
          exact htake
        · rw [List.append_nil]
          exact hheld

/-- A browser that always asks after the last message it holds never misses
one and never gets one twice: it holds the first part of what was said. A poll
that its notice is good for fills it up to the last message, if an answer takes
that many. -/
theorem poller_hears_transcript (turns : List ChatTurn)
    (hids : (drawn turns).Nodup) (id : String) :
    let (log, st) := ChatState.serveAll lib ([], {}) turns
    let said := (talkOf lib id log).said.map Prod.fst
    heard id log <+: said ∧
      ∀ s env scheme token ms,
        (st.serve s lib env (.messages id scheme token
          (lastNumber (·.seq) 0 (heard id log)))).1 = .ok (.messages true ms) →
        NumberedFrom (·.seq) 0 said ∧
          (said.length ≤ (heard id log).length + s.maxMessages →
            heard id log ++ ms = said) := by
  have hheld := heard_run lib hids id
  have htells := tells_run lib hids
  have hsound : ChatSound (ChatState.serveAll lib ([], {}) turns).2.tables :=
    sound_run sound_empty turns
  generalize ChatState.serveAll lib ([], {}) turns = start at *
  obtain ⟨log, st⟩ := start
  simp only at hheld htells hsound ⊢
  refine ⟨hheld, fun s env scheme token ms hreply => ?_⟩
  obtain ⟨hnum, -, hms⟩ := poll_answer htells hsound (serve_ok hreply)
  refine ⟨hnum, fun hfits => ?_⟩
  have hwhole := append_above hnum hheld
  have hlen := congrArg List.length hwhole
  rw [List.length_append] at hlen
  rw [hms, if_pos rfl, List.take_of_length_le (by omega)]
  exact hwhole

/-- An end user opens a conversation, agrees to the notice, says something and
looks. -/
def spokenTalk : List ChatTurn :=
  [shortTurn 0 (.openChat "agent-1" "conv-1" "alpha"),
    shortTurn 1000 (.notice "conv-1" "Bearer" "alpha" "1"),
    shortTurn 2000 (.send "conv-1" "Bearer" "alpha" "hello"),
    shortTurn 3000 (.messages "conv-1" "Bearer" "alpha" 0)]

theorem poller_hears_transcript_spoken :
    let (log, st) := ChatState.serveAll shortLib ([], {}) spokenTalk
    let said := (talkOf shortLib "conv-1" log).said.map Prod.fst
    heard "conv-1" log <+: said ∧
      ∀ s env scheme token ms,
        (st.serve s shortLib env (.messages "conv-1" scheme token
          (lastNumber (·.seq) 0 (heard "conv-1" log)))).1 =
            .ok (.messages true ms) →
        NumberedFrom (·.seq) 0 said ∧
          (said.length ≤ (heard "conv-1" log).length + s.maxMessages →
            heard "conv-1" log ++ ms = said) :=
  poller_hears_transcript spokenTalk (by decide) "conv-1"

example : heard "conv-1" (ChatState.serveAll shortLib ([], {}) spokenTalk).1 =
    [⟨1, .endUser, "hello", 2000⟩] := by decide +kernel

/-! ## What a bearer is good for -/

/-- A message is stored for the browser or messages are shown to it. -/
def discloses : ChatReply → Bool
  | .message _ => true
  | .messages _ (_ :: _) => true
  | _ => false

theorem served_noticed {req : ChatRequest} {reply : ChatReply} {token : String}
    (hstep : Served s lib env t req reply t')
    (hreq : bearer req = some (id, token)) (hshows : discloses reply = true) :
    ∃ c ∈ t.conversations, c.id = id ∧ c.acknowledged s = true := by
  cases hstep with
  | polled member start verified =>
      obtain ⟨rfl, -⟩ := Prod.mk.inj (Option.some.inj hreq)
      refine ⟨_, member, rfl, ?_⟩
      by_contra hnot
      rw [if_neg hnot] at hshows
      cases hshows
  | sent writable verified noticed =>
      obtain ⟨rfl, -⟩ := Prod.mk.inj (Option.some.inj hreq)
      exact ⟨_, writable.member, rfl, noticed⟩
  | agreed | acknowledged | refreshed => cases hshows
  | _ => cases hreq

/-- A bearer that is accepted is the last one handed out for its conversation,
before it lapses and before the conversation is ended. Messages that it stores
or shows come after the notice was agreed to in the browser that was opened
last. -/
theorem bearer_follows_talk (hdigest : ∀ token, lib.hashToken token ≠ "")
    (turns : List ChatTurn) (hids : (drawn turns).Nodup) (req : ChatRequest)
    {reply : ChatReply} {token : String} (hreq : bearer req = some (id, token))
    (hreply : ((ChatState.serveAll lib ([], {}) turns).2.serve s lib env
      req).1 = .ok reply) :
    let talk := talkOf lib id (ChatState.serveAll lib ([], {}) turns).1
    (∃ last expires, talk.bearer = some (last, expires) ∧
        lib.hashToken token = lib.hashToken last ∧ env.now < expires) ∧
      talk.ended = false ∧
      (discloses reply = true → talk.noticed = some s.noticeVersion) := by
  intro talk
  have htells := tells_run lib hids
  have hsound : ChatSound (ChatState.serveAll lib ([], {}) turns).2.tables :=
    sound_run sound_empty turns
  have hserved := serve_ok hreply
  obtain ⟨c, hc, rfl, hhash, hlive⟩ := hserved.bearer hreq
  have hagrees := htells.rows c hc
  have hopen : c.status = .opened := by
    cases hstatus : c.status with
    | opened => rfl
    | closed =>
        rw [(hsound.ended c hc hstatus).1] at hhash
        exact absurd hhash (hdigest token)
  obtain ⟨last, hlast, hcurrent⟩ := hagrees.bearer hopen
  refine ⟨⟨last, _, hlast, hhash.trans hcurrent, hlive⟩, ?_, ?_⟩
  · exact hagrees.ended.trans (decide_eq_false (by rw [hopen]; nofun))
  · intro hshows
    obtain ⟨d, hd, hid, hnoticed⟩ := served_noticed hserved hreq hshows
    rw [hsound.eq_of_id hd hc hid, hagrees.acknowledged s] at hnoticed
    exact of_decide_eq_true hnoticed

theorem spokenTalk_send : ((ChatState.serveAll shortLib ([], {})
      spokenTalk).2.serve shortSettings shortLib (shortEnv 4000)
        (.send "conv-1" "Bearer" "alpha" "hello")).1 =
    .ok (.message ⟨2, .endUser, "hello", 4000⟩) := by decide +kernel

theorem bearer_follows_talk_spoken :
    let talk := talkOf shortLib "conv-1"
      (ChatState.serveAll shortLib ([], {}) spokenTalk).1
    (∃ last expires, talk.bearer = some (last, expires) ∧
        shortLib.hashToken "alpha" = shortLib.hashToken last ∧
        (4000 : Int) < expires) ∧
      talk.ended = false ∧
      (discloses (.message ⟨2, .endUser, "hello", 4000⟩) = true →
        talk.noticed = some "1") :=
  bearer_follows_talk shortLib_digest spokenTalk (by decide)
    (.send "conv-1" "Bearer" "alpha" "hello") rfl spokenTalk_send

/-! ## The trail -/

/-- The conversation an event is about. -/
def concerns : ChatEvent → String
  | .opened id _ _ => id
  | .tokenMinted id _ _ _ => id
  | .noticeAcknowledged id _ _ => id
  | .technicianJoined id _ _ => id
  | .closed id _ _ _ => id

def trailOf (t : ChatTables) (id : String) : List ChatEvent :=
  t.trail.filter fun e => decide (concerns e = id)

def isOpening : ChatEvent → Bool
  | .opened _ _ _ => true
  | _ => false

def ending : ChatEvent → Option Nat
  | .closed _ _ _ count => some count
  | _ => none

def joining : ChatEvent → Option String
  | .technicianJoined _ operatorID _ => some operatorID
  | _ => none

/-- The events of a conversation say what was told: it was opened once, it
ended once and with so many messages, and each technician joined it once, with
the first reply. -/
structure Recorded (talk : Talk) (trail : List ChatEvent) : Prop where
  opened : trail.countP isOpening = if talk.bearer.isSome then 1 else 0
  ended : trail.filterMap ending =
    if talk.ended then [talk.said.length] else []
  joined : ∀ operatorID, (trail.filterMap joining).count operatorID =
    if some operatorID ∈ talk.said.map Prod.snd then 1 else 0

theorem trailOf_append {events : List ChatEvent}
    (htrail : t'.trail = t.trail ++ events)
    (hevents : ∀ e ∈ events, concerns e = id) (id' : String) :
    trailOf t' id' = trailOf t id' ++ if id' = id then events else [] := by
  rw [trailOf, htrail, List.filter_append, trailOf]
  congr 1
  split
  · next hid =>
      exact List.filter_eq_self.mpr fun e he =>
        decide_eq_true ((hevents e he).trans hid.symm)
  · next hid =>
      refine List.filter_eq_nil_iff.mpr fun e he h => hid ?_
      exact (of_decide_eq_true h).symm.trans (hevents e he)

/-- Events that neither open, end nor join. -/
theorem Recorded.quiet {talk talk' : Talk} {trail events : List ChatEvent}
    (h : Recorded talk trail) (hsaid : talk'.said = talk.said)
    (hended : talk'.ended = talk.ended)
    (hbearer : talk'.bearer.isSome = talk.bearer.isSome)
    (hevents : ∀ e ∈ events,
      isOpening e = false ∧ ending e = none ∧ joining e = none) :
    Recorded talk' (trail ++ events) where
  opened := by
    rw [hbearer, ← h.opened, List.countP_append, Nat.add_eq_left,
      List.countP_eq_zero]
    intro e he
    rw [(hevents e he).1]
    nofun
  ended := by
    have hnone : events.filterMap ending = [] :=
      List.filterMap_eq_nil_iff.mpr fun e he => (hevents e he).2.1
    rw [hsaid, hended, ← h.ended, List.filterMap_append, hnone, List.append_nil]
  joined operatorID := by
    have hnone : events.filterMap joining = [] :=
      List.filterMap_eq_nil_iff.mpr fun e he => (hevents e he).2.2
    rw [hsaid, ← h.joined, List.filterMap_append, hnone, List.append_nil]

/-- Every conversation's trail says what was told of it. -/
abbrev AllRecorded (lib : ChatLib) (log : ChatLog) (t : ChatTables) : Prop :=
  ∀ id, Recorded (talkOf lib id log) (trailOf t id)

theorem AllRecorded.keep (h : AllRecorded lib log t) {reply : ChatReply}
    (habout : about turn.request reply = none) (htrail : t'.trail = t.trail) :
    AllRecorded lib (log ++ [(turn, .ok reply)]) t' := by
  intro id
  rw [talkOf_other (by rw [habout]; nofun), trailOf, htrail]
  exact h id

/-- An answer about one conversation, and the events it adds. -/
theorem AllRecorded.edit (h : AllRecorded lib log t) {reply : ChatReply}
    {events : List ChatEvent} (htrail : t'.trail = t.trail ++ events)
    (habout : about turn.request reply = some id)
    (hevents : ∀ e ∈ events, concerns e = id)
    (hrecorded : Recorded (talkOf lib id log) (trailOf t id) →
      Recorded ((talkOf lib id log).told lib turn reply)
        (trailOf t id ++ events)) :
    AllRecorded lib (log ++ [(turn, .ok reply)]) t' := by
  intro id'
  rw [trailOf_append htrail hevents]
  split
  · next hid =>
      rw [hid, talkOf_about habout]
      exact hrecorded (h id)
  · next hid =>
      have hother : about turn.request reply ≠ some id' := fun he =>
        hid (Option.some.inj (he.symm.trans habout))
      rw [talkOf_other hother, List.append_nil]
      exact h id'

/-- A conversation opens. -/
theorem Recorded.opens {talk : Talk} {trail : List ChatEvent}
    (h : Recorded {} trail) (hsaid : talk.said = [])
    (hended : talk.ended = false) (hbearer : talk.bearer.isSome = true)
    {openedBy : SupportParty} {count count' : Nat} {reason : String}
    {expires : Int} :
    Recorded talk (trail ++ [.opened id openedBy count,
      .tokenMinted id reason expires count']) where
  opened := by
    rw [List.countP_append, h.opened, hbearer]
    rfl
  ended := by
    rw [List.filterMap_append, h.ended, hended]
    rfl
  joined operatorID := by
    have hnone : [ChatEvent.opened id openedBy count,
      .tokenMinted id reason expires count'].filterMap joining = [] := rfl
    rw [List.filterMap_append, hnone, List.append_nil, h.joined, hsaid]

/-- An end user's message. -/
theorem Recorded.sends {talk : Talk} {trail : List ChatEvent}
    (h : Recorded talk trail) (hended : talk.ended = false) (m : MessageOut) :
    Recorded { talk with said := talk.said ++ [(m, none)] } trail where
  opened := h.opened
  ended := by
    rw [h.ended, hended]
    rfl
  joined op := by
    rw [h.joined, List.map_append]
    refine if_congr ?_ rfl rfl
    rw [List.mem_append]
    simp

/-- A technician's reply: the trail takes it when it is the first. -/
theorem Recorded.replies {talk : Talk} {trail : List ChatEvent}
    (h : Recorded talk trail) (hended : talk.ended = false) (m : MessageOut)
    (operatorID : String) (count : Nat) :
    Recorded { talk with said := talk.said ++ [(m, some operatorID)] }
      (trail ++ if some operatorID ∈ talk.said.map Prod.snd then []
        else [.technicianJoined id operatorID count]) := by
  have hother : ∀ op, op ≠ operatorID →
      (some op ∈ (talk.said ++ [(m, some operatorID)]).map Prod.snd ↔
        some op ∈ talk.said.map Prod.snd) := by
    intro op hop
    rw [List.map_append, List.mem_append]
    simp [hop]
  by_cases hold : some operatorID ∈ talk.said.map Prod.snd
  · rw [if_pos hold, List.append_nil]
    refine ⟨h.opened, ?_, fun op => ?_⟩
    · rw [h.ended, hended]
      rfl
    · rw [h.joined]
      by_cases hop : op = operatorID
      · rw [hop, if_pos hold, List.map_append,
          if_pos (List.mem_append_left _ hold)]
      · exact (if_congr (hother op hop) rfl rfl).symm
  · rw [if_neg hold]
    refine ⟨?_, ?_, fun op => ?_⟩
    · rw [List.countP_append, h.opened]
      rfl
    · rw [List.filterMap_append, h.ended, hended]
      rfl
    · rw [List.filterMap_append, List.count_append, h.joined]
      by_cases hop : op = operatorID
      · subst hop
        simp [hold, joining]
      · have hnone : ([ChatEvent.technicianJoined id operatorID
            count].filterMap joining).count op = 0 :=
          List.count_eq_zero.mpr (by simp [joining, hop])
        rw [hnone, Nat.add_zero]
        exact (if_congr (hother op hop) rfl rfl).symm

theorem join_trail (t : ChatTables) (id operatorID : String) :
    (join t id operatorID).trail = t.trail ++
      if (t.messagesOf id).countP
          (fun m => decide (m.operatorID = some operatorID)) ≠ 1 then []
      else [.technicianJoined id operatorID (t.messageCount id)] := by
  unfold join
  simp only []
  split
  · exact (List.append_nil _).symm
  · rfl

/-- The end, with so many messages. -/
theorem Recorded.ends {talk : Talk} {trail : List ChatEvent}
    (h : Recorded talk trail) (hended : talk.ended = false)
    (id reason op : String) :
    Recorded { talk with ended := true }
      (trail ++ [.closed id reason op talk.said.length]) where
  opened := by
    rw [List.countP_append, h.opened]
    rfl
  ended := by
    rw [List.filterMap_append, h.ended, hended]
    rfl
  joined operatorID := by
    have hnone : [ChatEvent.closed id reason op
      talk.said.length].filterMap joining = [] := rfl
    rw [List.filterMap_append, hnone, List.append_nil, h.joined]

theorem countP_operator (t : ChatTables) (id operatorID : String) :
    (t.messagesOf id).countP
        (fun m => decide (m.operatorID = some operatorID)) =
      ((transcriptOf t id).map Prod.snd).count (some operatorID) := by
  rw [transcriptOf, List.map_map, List.count_eq_countP, List.countP_map]
  exact List.countP_congr fun m _ => by simp [words]

theorem count_again (said : List (MessageOut × Option String))
    (m : MessageOut) (op : Option String) :
    ((said ++ [(m, op)]).map Prod.snd).count op ≠ 1 ↔
      op ∈ said.map Prod.snd := by
  rw [List.map_append, List.count_append, List.map_singleton,
    List.count_singleton_self, ← List.count_pos_iff]
  omega

/-- An answer keeps the trails and what was told in step. -/
theorem AllRecorded.step (h : AllRecorded lib log t)
    (htells : Tells lib turns log t) {reply : ChatReply}
    (hstep : Served turn.settings lib turn.env t turn.request reply t')
    (hfresh : ∀ id, draws turn.request = some id → id ∉ drawn turns) :
    AllRecorded lib (log ++ [(turn, .ok reply)]) t' := by
  obtain ⟨s, env, req⟩ := turn
  simp only at hstep hfresh
  have hopened : ∀ {c : SupportConversation}, c ∈ t.conversations →
      c.status = .opened → (talkOf lib c.id log).bearer.isSome = true ∧
        (talkOf lib c.id log).ended = false := by
    intro c hc hopen
    have ha := htells.rows c hc
    obtain ⟨token, hbearer, -⟩ := ha.bearer hopen
    exact ⟨by rw [hbearer]; rfl, ha.ended.trans (by rw [hopen]; rfl)⟩
  cases hstep with
  | opened clientID idle fresh =>
      refine h.edit rfl rfl (by simp [concerns]) ?_
      rw [htells.untold _ (hfresh _ rfl)]
      exact fun hr => hr.opens rfl rfl rfl
  | @reopened agentID id token c member opened agent =>
      refine h.edit rfl rfl (by simp [concerns]) fun hr => ?_
      refine hr.quiet rfl rfl ?_ (by simp [isOpening, ending, joining])
      exact (hopened member opened).1.symm
  | technicianOpened clientID idle fresh =>
      refine h.edit rfl (if_pos rfl) (by simp [concerns]) ?_
      rw [htells.untold _ (hfresh _ rfl)]
      exact fun hr => hr.opens rfl rfl rfl
  | technicianFound member opened agent =>
      refine h.keep (if_neg ?_) rfl
      rintro rfl
      exact hfresh _ rfl (htells.known _ member)
  | @launched agentID c minted member opened waiting only =>
      have hquiet : ∀ e ∈ minted, concerns e = c.id ∧
          isOpening e = false ∧ ending e = none ∧ joining e = none := by
        intro e he
        rcases only with rfl | ⟨expires, count, rfl⟩
        · cases he
        · rw [List.mem_singleton.mp he]
          exact ⟨rfl, rfl, rfl, rfl⟩
      refine h.edit rfl rfl (fun e he => (hquiet e he).1) fun hr => ?_
      refine hr.quiet rfl rfl ?_ fun e he => (hquiet e he).2
      exact Option.isSome_map
  | beat => exact h.keep rfl rfl
  | polled member start bearer => exact h.keep rfl rfl
  | agreed member opened bearer already =>
      refine h.edit (List.append_nil _).symm rfl nofun fun hr => ?_
      exact hr.quiet rfl rfl rfl nofun
  | acknowledged member opened bearer =>
      refine h.edit rfl rfl (by simp [concerns]) fun hr => ?_
      exact hr.quiet rfl rfl rfl (by simp [isOpening, ending, joining])
  | sent writable bearer noticed =>
      refine h.edit (List.append_nil _).symm rfl nofun fun hr => ?_
      rw [List.append_nil]
      exact hr.sends (hopened writable.member writable.opened).2 _
  | refreshed member opened bearer =>
      refine h.edit rfl rfl (by simp [concerns]) fun hr => ?_
      refine hr.quiet rfl rfl ?_ (by simp [isOpening, ending, joining])
      exact (hopened member opened).1.symm
  | shown member => exact h.keep rfl rfl
  | @replied operator c body subject writable =>
      have hsaid : transcriptOf (withMessage t (spokenRow c env.now subject)
          (storedMessage lib t env.now c body .technician
            (some operator.id))) c.id =
          (talkOf lib c.id log).said ++ [((storedMessage lib t env.now c
            body .technician (some operator.id)).out, some operator.id)] := by
        rw [← (htells.rows c writable.member).said,
          transcriptOf_store t env.now c subject _ rfl, if_pos rfl]
        rfl
      refine h.edit (join_trail _ _ _) rfl ?_ fun hr => ?_
      · intro e he
        split at he
        · cases he
        · rw [List.mem_singleton.mp he]
          rfl
      · rw [countP_operator, hsaid, if_congr (count_again _ _ _) rfl rfl]
        exact hr.replies (hopened writable.member writable.opened).2 _ _ _
  | alreadyClosed member closed =>
      refine h.edit (List.append_nil _).symm rfl nofun fun hr => ?_
      refine hr.quiet rfl ?_ rfl nofun
      exact ((htells.rows _ member).ended.trans (decide_eq_true closed)).symm
  | @closed operator c member opened =>
      refine h.edit rfl rfl (by simp [concerns]) fun hr => ?_
      have hcount :
          t.messageCount c.id = (talkOf lib c.id log).said.length := by
        rw [← (htells.rows c member).said, transcriptOf, List.length_map,
          ChatTables.messageCount]
      rw [hcount]
      exact hr.ends (hopened member opened).2 _ _ _
  | pruned =>
      obtain ⟨ids, -, heq⟩ := prune_eq s t env.now
      exact h.keep rfl (by rw [heq])

/-- However the requests come, the trail says of every conversation what was
told of it. -/
theorem trail_says_what_was_told (turns : List ChatTurn)
    (hids : (drawn turns).Nodup) :
    let (log, st) := ChatState.serveAll lib ([], {}) turns
    ∀ id, Recorded (talkOf lib id log) (trailOf st.tables id) := by
  induction turns using List.reverseRecOn with
  | nil =>
      intro id
      exact ⟨rfl, rfl, fun _ => rfl⟩
  | append_singleton turns turn ih =>
      rw [drawn_concat, List.nodup_append] at hids
      obtain ⟨hbefore, -, hapart⟩ := hids
      have hrecorded := ih hbefore
      have htells := tells_run lib hbefore
      rw [serveAll_concat]
      generalize ChatState.serveAll lib ([], {}) turns = start at *
      obtain ⟨log, st⟩ := start
      simp only at hrecorded htells ⊢
      cases hreply : (st.serve turn.settings lib turn.env turn.request).1 with
      | error f =>
          intro id
          rw [talkOf_error, serve_error hreply]
          exact hrecorded id
      | ok reply =>
          refine AllRecorded.step hrecorded htells (serve_ok hreply)
            fun id hid hold => ?_
          exact hapart id hold id (by rw [hid]; exact List.mem_cons_self) rfl

/-- The talk goes on: the operator replies and closes, and a month later the
conversation is pruned. -/
def toldTalk : List ChatTurn :=
  spokenTalk ++
    [shortTurn 4000 (.reply shortOperator "conv-1" "hi"),
      shortTurn 5000 (.close shortOperator "conv-1"),
      shortTurn 2592000005001 .prune]

theorem toldTalk_leaves :
    let (log, st) := ChatState.serveAll shortLib ([], {}) toldTalk
    st.tables.conversations = [] ∧
      (talkOf shortLib "conv-1" log).said.length = 2 := by decide +kernel

theorem trail_says_what_was_told_told :
    let (log, st) := ChatState.serveAll shortLib ([], {}) toldTalk
    (st.tables.conversations = [] ∧
        (talkOf shortLib "conv-1" log).said.length = 2) ∧
      ∀ id, Recorded (talkOf shortLib id log) (trailOf st.tables id) :=
  ⟨toldTalk_leaves, trail_says_what_was_told toldTalk (by decide)⟩

end NodeLink.Proofs.ChatHistories
