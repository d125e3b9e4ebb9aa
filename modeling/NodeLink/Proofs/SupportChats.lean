import NodeLink.Lib.Numbered
import NodeLink.Server.SupportChat

/-!
# What a support conversation is

What each request of the chat does to its tables is said once, in `Served`.
From it: an agent has one open conversation at the most and a closed one stays
as it was; whoever polls after the last message it holds gets the transcript
without a gap or a repeat; nothing of the end user is stored or shown before
the notice is acknowledged in the browser that was opened last; and a bearer
that is accepted is the one minted last.
-/

namespace NodeLink.Proofs.SupportChats

open Lib Server

variable {s : ChatSettings} {lib : ChatLib} {env : ChatEnv}
variable {t t' : ChatTables} {st st' : ChatState}
variable {req : ChatRequest} {reply : ChatReply}

/-! ## One request -/

/-- The row of a conversation an end user opens. -/
def userRow (s : ChatSettings) (lib : ChatLib) (now : Int)
    (agentID id token clientID : String) : SupportConversation where
  id := id
  agentID := agentID
  clientID := clientID
  createdAt := now
  tokenHash := lib.hashToken token
  tokenExpiresAt := now + s.tokenTtl

/-- The row of a conversation a technician opens. -/
def technicianRow (s : ChatSettings) (lib : ChatLib) (now : Int)
    (agentID id token clientID : String) : SupportConversation :=
  (technicianLaunch s lib now
    { userRow s lib now agentID id token clientID with
      openedBy := .technician }).2

/-- A row with a new bearer, for a browser that has acknowledged nothing. -/
def reopenedRow (s : ChatSettings) (lib : ChatLib) (now : Int) (token : String)
    (c : SupportConversation) : SupportConversation :=
  { rotate s lib now token c with
    noticeVersion := none, noticeAcknowledgedAt := none }

/-- A message as it is stored. -/
def storedMessage (lib : ChatLib) (t : ChatTables) (now : Int)
    (c : SupportConversation) (body : String) (sender : SupportParty)
    (operatorID : Option String) : SupportMessage where
  conversationID := c.id
  seq := lastSeq (t.messagesOf c.id) + 1
  sender := sender
  operatorID := operatorID
  body := lib.scrubText body
  createdAt := now

/-- The tables with one message more. -/
def withMessage (t : ChatTables) (c : SupportConversation)
    (m : SupportMessage) : ChatTables :=
  { t.put c with messages := t.messages ++ [m] }

/-- What a message is stored on. -/
structure Writable (s : ChatSettings) (lib : ChatLib) (t : ChatTables)
    (c : SupportConversation) (body : String) : Prop where
  member : c ∈ t.conversations
  opened : c.status = .opened
  fits : (utf8 (lib.scrubText body).toList).length ≤ s.maxMessageBytes
  room : t.messageCount c.id < s.maxMessages

/-- The row a message leaves. -/
def spokenRow (c : SupportConversation) (now : Int) (subject : Option String) :
    SupportConversation :=
  { c with lastMessageAt := some now, subject := subject }

def closedRow (now : Int) (operatorID : String) (c : SupportConversation) :
    SupportConversation :=
  { c with
    status := .closed, closedAt := some now, tokenHash := ""
    closedByOperatorID := some operatorID }

/-- Requests that succeed: what they find, what they answer and what they
leave. -/
inductive Served (s : ChatSettings) (lib : ChatLib) (env : ChatEnv)
    (t : ChatTables) : ChatRequest → ChatReply → ChatTables → Prop where
  | opened (clientID : String) {agentID id token : String}
      (idle : t.active agentID = []) (fresh : t.find id = none) :
      Served s lib env t (.openChat agentID id token) (.opened id (some token))
        ⟨t.conversations ++ [userRow s lib env.now agentID id token clientID],
          t.messages, t.trail ++ [.opened id .endUser (t.messageCount id),
            .tokenMinted id "open" (env.now + s.tokenTtl) (t.messageCount id)]⟩
  | reopened {agentID id token : String} {c : SupportConversation}
      (member : c ∈ t.conversations) (opened : c.status = .opened)
      (agent : c.agentID = agentID) :
      Served s lib env t (.openChat agentID id token)
        (.opened c.id (some token))
        ((t.put (reopenedRow s lib env.now token c)).record
          (.tokenMinted c.id "open" (env.now + s.tokenTtl)
            (t.messageCount c.id)))
  | technicianOpened (clientID : String) {operator : Operator}
      {agentID id token : String}
      (idle : t.active agentID = []) (fresh : t.find id = none)
      {expires : Int} :
      Served s lib env t (.openTechnicianChat operator agentID id token)
        (.opened id none)
        ⟨t.conversations ++
          [technicianRow s lib env.now agentID id token clientID],
          t.messages, t.trail ++ [.opened id .technician (t.messageCount id),
            .tokenMinted id "technician_launch" expires (t.messageCount id)]⟩
  | technicianFound {operator : Operator} {agentID id token : String}
      {c : SupportConversation} (member : c ∈ t.conversations)
      (opened : c.status = .opened) (agent : c.agentID = agentID) :
      Served s lib env t (.openTechnicianChat operator agentID id token)
        (.opened c.id none) t
  | launched {agentID : String} {c : SupportConversation}
      {minted : List ChatEvent}
      (member : c ∈ t.conversations) (opened : c.status = .opened)
      (waiting : c.noticeAcknowledgedAt = none)
      (only : minted = [] ∨ ∃ expires count,
        minted = [.tokenMinted c.id "technician_launch" expires count]) :
      Served s lib env t (.heartbeat agentID)
        (.launch (some (c.id, (technicianLaunch s lib env.now c).1)))
        { t.put (technicianLaunch s lib env.now c).2 with
          trail := t.trail ++ minted }
  | beat {agentID : String} :
      Served s lib env t (.heartbeat agentID) (.launch none) t
  | polled {c : SupportConversation} {scheme token : String} {after : Int}
      (member : c ∈ t.conversations) (start : 0 ≤ after)
      (bearer : verify lib env.now c token = .ok ()) :
      Served s lib env t (.messages c.id scheme token after)
        (.messages (c.acknowledged s)
          (if c.acknowledged s then
            ((((t.messagesOf c.id).filter fun m =>
              decide (after < m.seq)).insertionSort bySeq).take
                s.maxMessages).map (·.out)
          else [])) t
  | agreed {c : SupportConversation} {scheme token : String}
      (member : c ∈ t.conversations) (opened : c.status = .opened)
      (bearer : verify lib env.now c token = .ok ())
      (already : c.acknowledged s = true) :
      Served s lib env t (.notice c.id scheme token s.noticeVersion)
        .acknowledged t
  | acknowledged {c : SupportConversation} {scheme token : String}
      (member : c ∈ t.conversations) (opened : c.status = .opened)
      (bearer : verify lib env.now c token = .ok ()) :
      Served s lib env t (.notice c.id scheme token s.noticeVersion)
        .acknowledged
        ((t.put { c with
            noticeVersion := some s.noticeVersion
            noticeAcknowledgedAt := some env.now }).record
          (.noticeAcknowledged c.id s.noticeVersion (t.messageCount c.id)))
  | sent {c : SupportConversation} {scheme token body : String}
      {subject : Option String} (writable : Writable s lib t c body)
      (bearer : verify lib env.now c token = .ok ())
      (noticed : c.acknowledged s = true) :
      Served s lib env t (.send c.id scheme token body)
        (.message (storedMessage lib t env.now c body .endUser none).out)
        (withMessage t (spokenRow c env.now subject)
          (storedMessage lib t env.now c body .endUser none))
  | refreshed {c : SupportConversation} {scheme token fresh : String}
      (member : c ∈ t.conversations) (opened : c.status = .opened)
      (bearer : verify lib env.now c token = .ok ()) :
      Served s lib env t (.refresh c.id scheme token fresh)
        (.token fresh (env.now + s.tokenTtl))
        ((t.put (rotate s lib env.now fresh c)).record
          (.tokenMinted c.id "refresh" (env.now + s.tokenTtl)
            (t.messageCount c.id)))
  | shown {operator : Operator} {c : SupportConversation}
      {rows : List (MessageOut × Option String)}
      (member : c ∈ t.conversations) :
      Served s lib env t (.transcript operator c.id) (.transcript rows)
        (markRead t env.now c.id)
  | replied {operator : Operator} {c : SupportConversation} {body : String}
      {subject : Option String} (writable : Writable s lib t c body) :
      Served s lib env t (.reply operator c.id body)
        (.message (storedMessage lib t env.now c body .technician
          (some operator.id)).out)
        (join (withMessage t (spokenRow c env.now subject)
          (storedMessage lib t env.now c body .technician (some operator.id)))
          c.id operator.id)
  | alreadyClosed {operator : Operator} {c : SupportConversation}
      (member : c ∈ t.conversations) (closed : c.status = .closed) :
      Served s lib env t (.close operator c.id) .closed t
  | closed {operator : Operator} {c : SupportConversation}
      (member : c ∈ t.conversations) (opened : c.status = .opened) :
      Served s lib env t (.close operator c.id) .closed
        ((t.put (closedRow env.now operator.id c)).record
          (.closed c.id "operator" operator.id (t.messageCount c.id)))
  | pruned : Served s lib env t .prune .pruned (pruneSupportChat s t env.now)

theorem route_cases {α : Type} (st : ChatState) (tick : ChatLimiter → Ticks Int)
    (check : Except ChatFailure α) (keys : α → List (ChatLimiter × String))
    (act : α → Except ChatFailure (ChatReply × ChatTables)) :
    (∃ f, (st.route tick check keys act).1 = .error f ∧
        (st.route tick check keys act).2.tables = st.tables) ∨
      ∃ a reply t, check = .ok a ∧ act a = .ok (reply, t) ∧
        (st.route tick check keys act).1 = .ok reply ∧
        (st.route tick check keys act).2.tables = t := by
  unfold ChatState.route
  cases check with
  | error f => exact .inl ⟨f, rfl, rfl⟩
  | ok a =>
      simp only []
      rcases askLimits st.limits tick (keys a) with ⟨ok, limits⟩
      cases ok with
      | false => exact .inl ⟨_, rfl, rfl⟩
      | true =>
          rcases hact : act a with f | ⟨reply, t⟩
          · exact .inl ⟨f, rfl, rfl⟩
          · exact .inr ⟨a, reply, t, rfl, hact, rfl, rfl⟩

theorem mem_of_find {id : String} {c : SupportConversation}
    (h : t.find id = some c) : c ∈ t.conversations ∧ c.id = id :=
  ⟨List.mem_of_find?_eq_some h, of_decide_eq_true (List.find?_some
    (p := fun c : SupportConversation => decide (c.id = id)) h)⟩

theorem orFail_eq_ok {α : Type} {o : Option α} {f : ChatFailure} {a : α} :
    orFail o f = .ok a ↔ o = some a := by
  cases o with
  | none => exact ⟨nofun, nofun⟩
  | some b =>
      exact ⟨fun h => congrArg some (Except.ok.inj h),
        fun h => congrArg Except.ok (Option.some.inj h)⟩

theorem mem_active {agentID : String} {c : SupportConversation} :
    c ∈ t.active agentID ↔
      c ∈ t.conversations ∧ c.agentID = agentID ∧ c.status = .opened := by
  unfold ChatTables.active
  rw [List.mem_filter, Bool.and_eq_true, decide_eq_true_eq, decide_eq_true_eq]

theorem authorized_ok {id scheme token : String} {c : SupportConversation}
    (h : authorized lib env t id scheme token = .ok c) :
    c ∈ t.conversations ∧ c.id = id ∧ verify lib env.now c token = .ok () := by
  unfold authorized at h
  obtain ⟨-, h⟩ := require_bind_eq_ok.mp h
  obtain ⟨d, hfind, h⟩ := bind_eq_ok.mp h
  obtain ⟨hverify, h⟩ := unit_bind_eq_ok.mp h
  obtain ⟨-, h⟩ := require_bind_eq_ok.mp h
  obtain rfl := Except.ok.inj h
  obtain ⟨hmem, hid⟩ := mem_of_find (orFail_eq_ok.mp hfind)
  exact ⟨hmem, hid, hverify⟩

theorem visibleConversation_ok {operator : Operator} {id : String}
    {acting : Bool} {c : SupportConversation}
    (h : visibleConversation env t operator id acting = .ok c) :
    c ∈ t.conversations ∧ c.id = id := by
  unfold visibleConversation at h
  obtain ⟨-, h⟩ := unit_bind_eq_ok.mp h
  obtain ⟨d, hfind, h⟩ := bind_eq_ok.mp h
  have hd : d = c := by
    cases acting with
    | true => exact Except.ok.inj (unit_bind_eq_ok.mp h).2
    | false => exact Except.ok.inj (require_bind_eq_ok.mp h).2
  rw [← hd]
  exact mem_of_find (orFail_eq_ok.mp hfind)

theorem appendMessage_ok {now : Int} {c : SupportConversation} {body : String}
    {sender : SupportParty} {operatorID : Option String} {m : SupportMessage}
    (hmem : c ∈ t.conversations)
    (h : appendMessage s lib t now c body sender operatorID = .ok (m, t')) :
    Writable s lib t c body ∧ (sender = .endUser → c.acknowledged s = true) ∧
      m = storedMessage lib t now c body sender operatorID ∧
      ∃ subject, t' = withMessage t (spokenRow c now subject) m := by
  unfold appendMessage at h
  obtain ⟨hopen, h⟩ := unit_bind_eq_ok.mp h
  obtain ⟨hnotice, h⟩ := require_bind_eq_ok.mp h
  obtain ⟨-, h⟩ := require_bind_eq_ok.mp h
  obtain ⟨-, h⟩ := require_bind_eq_ok.mp h
  obtain ⟨hfits, h⟩ := require_bind_eq_ok.mp h
  obtain ⟨hroom, h⟩ := require_bind_eq_ok.mp h
  obtain ⟨rfl, rfl⟩ := Prod.mk.inj (Except.ok.inj h)
  exact ⟨⟨hmem, require_eq_ok.mp hopen, hfits, hroom⟩, hnotice, rfl, _, rfl⟩

theorem newConversation_ok {now : Int} {agentID id : String}
    {clientID : Option String} {openedBy : SupportParty}
    {c : SupportConversation}
    (h : newConversation t now agentID id clientID openedBy = .ok c) :
    t.find id = none ∧ ∃ clientID,
      c = {
        id := id, agentID := agentID, clientID := clientID, openedBy := openedBy
        createdAt := now, tokenHash := "", tokenExpiresAt := now } := by
  unfold newConversation at h
  cases clientID with
  | none => cases h
  | some clientID =>
      obtain ⟨hfresh, h⟩ := require_bind_eq_ok.mp h
      exact ⟨hfresh, clientID, (Except.ok.inj h).symm⟩

theorem openConversation_ok {agentID id token : String}
    {clientID : Option String} {c : SupportConversation}
    (h : openConversation s lib t env.now agentID id token clientID =
      .ok (c, t')) :
    Served s lib env t (.openChat agentID id token) (.opened c.id (some token))
      t' := by
  unfold openConversation at h
  obtain ⟨-, h⟩ := unit_bind_eq_ok.mp h
  rcases hactive : t.active agentID with _ | ⟨d, rest⟩
  · rw [hactive] at h
    obtain ⟨e, hnew, h⟩ := bind_eq_ok.mp h
    obtain ⟨hfresh, clientID, rfl⟩ := newConversation_ok hnew
    obtain ⟨rfl, rfl⟩ := Prod.mk.inj (Except.ok.inj h)
    unfold ChatTables.record
    rw [List.append_assoc]
    exact .opened clientID hactive hfresh
  · rw [hactive] at h
    obtain ⟨rfl, rfl⟩ := Prod.mk.inj (Except.ok.inj h)
    obtain ⟨hmem, hagent, hopen⟩ :=
      mem_active.mp (hactive ▸ List.mem_cons_self : d ∈ t.active agentID)
    exact .reopened (c := d) hmem hopen hagent

theorem openTechnicianConversation_ok {operator : Operator}
    {agentID id token : String} {clientID : Option String}
    {c : SupportConversation}
    (h : openTechnicianConversation s lib t env.now agentID id token clientID =
      .ok (c, t')) :
    Served s lib env t (.openTechnicianChat operator agentID id token)
      (.opened c.id none) t' := by
  unfold openTechnicianConversation at h
  obtain ⟨-, h⟩ := unit_bind_eq_ok.mp h
  rcases hactive : t.active agentID with _ | ⟨d, rest⟩
  · rw [hactive] at h
    obtain ⟨e, hnew, h⟩ := bind_eq_ok.mp h
    obtain ⟨hfresh, clientID, rfl⟩ := newConversation_ok hnew
    obtain ⟨rfl, rfl⟩ := Prod.mk.inj (Except.ok.inj h)
    unfold ChatTables.record
    rw [List.append_assoc]
    exact .technicianOpened clientID hactive hfresh
  · rw [hactive] at h
    obtain ⟨rfl, rfl⟩ := Prod.mk.inj (Except.ok.inj h)
    obtain ⟨hmem, hagent, hopen⟩ :=
      mem_active.mp (hactive ▸ List.mem_cons_self : d ∈ t.active agentID)
    exact .technicianFound hmem hopen hagent

theorem launchConversation_some {agentID : String} {c : SupportConversation}
    (h : launchConversation t agentID = some c) :
    c ∈ t.conversations ∧ c.status = .opened ∧
      c.noticeAcknowledgedAt = none := by
  have hmem := List.mem_of_head? h
  rw [List.mem_insertionSort, List.mem_filter] at hmem
  simp only [Bool.and_eq_true, decide_eq_true_eq,
    Option.isNone_iff_eq_none] at hmem
  exact ⟨hmem.1, hmem.2.1.2, hmem.2.2⟩

theorem heartbeatLaunch_ok {agentID : String}
    (h : heartbeatLaunch s lib t env.now agentID = .ok (reply, t')) :
    Served s lib env t (.heartbeat agentID) reply t' := by
  unfold heartbeatLaunch at h
  rcases hlaunch : launchConversation t agentID with _ | c
  · rw [hlaunch] at h
    obtain ⟨rfl, rfl⟩ := Prod.mk.inj (Except.ok.inj h)
    exact .beat
  · rw [hlaunch] at h
    obtain ⟨-, h⟩ := require_bind_eq_ok.mp h
    obtain ⟨hmem, hopen, hwait⟩ := launchConversation_some hlaunch
    have hserved := fun minted => @Served.launched s lib env t agentID c minted
      hmem hopen hwait
    generalize technicianLaunch s lib env.now c = launch at h hserved
    obtain ⟨token, launched⟩ := launch
    obtain ⟨rfl, ht⟩ := Prod.mk.inj (Except.ok.inj h)
    rw [← ht]
    by_cases hsame : launched.tokenExpiresAt = c.tokenExpiresAt
    · rw [if_pos hsame]
      have hkeep := hserved [] (.inl rfl)
      rw [List.append_nil] at hkeep
      exact hkeep
    · rw [if_neg hsame]
      exact hserved _ (.inr ⟨_, _, rfl⟩)

theorem route_served {α : Type} {tick : ChatLimiter → Ticks Int}
    {check : Except ChatFailure α}
    {keys : α → List (ChatLimiter × String)}
    {act : α → Except ChatFailure (ChatReply × ChatTables)}
    (hact : ∀ a t, check = .ok a → act a = .ok (reply, t) →
      Served s lib env st.tables req reply t)
    (h : (st.route tick check keys act).1 = .ok reply) :
    Served s lib env st.tables req reply
      (st.route tick check keys act).2.tables := by
  obtain ⟨f, herr, -⟩ | ⟨a, r, t, hcheck, ha, hok, htables⟩ :=
    route_cases st tick check keys act
  · rw [herr] at h
    cases h
  · rw [hok] at h
    obtain rfl := Except.ok.inj h
    rw [htables]
    exact hact a t hcheck ha

/-- A request that succeeds does what `Served` says, and one that fails leaves
the tables alone. -/
theorem serve_ok (hok : (st.serve s lib env req).1 = .ok reply) :
    Served s lib env st.tables req reply (st.serve s lib env req).2.tables := by
  cases req with
  | openChat agentID id token =>
      refine route_served ?_ hok
      intro agent t' hcheck h
      obtain ⟨⟨c, t⟩, hopen, h⟩ := bind_eq_ok.mp h
      obtain ⟨rfl, rfl⟩ := Prod.mk.inj (Except.ok.inj h)
      exact openConversation_ok hopen
  | openTechnicianChat operator agentID id token =>
      refine route_served ?_ hok
      intro agent t' hcheck h
      obtain ⟨⟨c, t⟩, hopen, h⟩ := bind_eq_ok.mp h
      obtain ⟨rfl, rfl⟩ := Prod.mk.inj (Except.ok.inj h)
      exact openTechnicianConversation_ok hopen
  | heartbeat agentID =>
      refine route_served ?_ hok
      intro _ t' hcheck h
      split at h
      · exact heartbeatLaunch_ok h
      · obtain ⟨rfl, rfl⟩ := Prod.mk.inj (Except.ok.inj h)
        exact .beat
  | messages conversationID scheme token after =>
      refine route_served ?_ hok
      intro c t' hcheck h
      obtain ⟨hmem, rfl, hverify⟩ := authorized_ok hcheck
      obtain ⟨hstart, h⟩ := require_bind_eq_ok.mp h
      obtain ⟨rfl, rfl⟩ := Prod.mk.inj (Except.ok.inj h)
      exact .polled hmem hstart hverify
  | notice conversationID scheme token noticeVersion =>
      refine route_served ?_ hok
      intro c t' hcheck h
      obtain ⟨hmem, rfl, hverify⟩ := authorized_ok hcheck
      obtain ⟨-, h⟩ := require_bind_eq_ok.mp h
      obtain ⟨hopen, h⟩ := unit_bind_eq_ok.mp h
      obtain ⟨rfl, h⟩ := require_bind_eq_ok.mp h
      have hopened := require_eq_ok.mp hopen
      by_cases halready : c.acknowledged s = true
      · rw [if_pos halready] at h
        obtain ⟨rfl, rfl⟩ := Prod.mk.inj (Except.ok.inj h)
        exact .agreed hmem hopened hverify halready
      · rw [if_neg halready] at h
        obtain ⟨rfl, rfl⟩ := Prod.mk.inj (Except.ok.inj h)
        exact .acknowledged hmem hopened hverify
  | send conversationID scheme token body =>
      refine route_served ?_ hok
      intro c t' hcheck h
      obtain ⟨hmem, rfl, hverify⟩ := authorized_ok hcheck
      obtain ⟨-, h⟩ := require_bind_eq_ok.mp h
      obtain ⟨⟨m, t⟩, happend, h⟩ := bind_eq_ok.mp h
      obtain ⟨rfl, rfl⟩ := Prod.mk.inj (Except.ok.inj h)
      obtain ⟨hwrite, hnotice, rfl, subject, rfl⟩ :=
        appendMessage_ok hmem happend
      exact .sent hwrite hverify (hnotice rfl)
  | refresh conversationID scheme token fresh =>
      refine route_served ?_ hok
      intro c t' hcheck h
      obtain ⟨hmem, rfl, hverify⟩ := authorized_ok hcheck
      obtain ⟨hopen, h⟩ := unit_bind_eq_ok.mp h
      obtain ⟨rfl, rfl⟩ := Prod.mk.inj (Except.ok.inj h)
      exact .refreshed hmem (require_eq_ok.mp hopen) hverify
  | transcript operator conversationID =>
      refine route_served ?_ hok
      intro c t' hcheck h
      obtain ⟨hmem, rfl⟩ := visibleConversation_ok hcheck
      obtain ⟨rfl, rfl⟩ := Prod.mk.inj (Except.ok.inj h)
      exact .shown hmem
  | reply operator conversationID body =>
      refine route_served ?_ hok
      intro c t' hcheck h
      obtain ⟨-, hcheck⟩ := unit_bind_eq_ok.mp hcheck
      obtain ⟨hmem, rfl⟩ :=
        visibleConversation_ok (require_bind_eq_ok.mp hcheck).2
      obtain ⟨⟨m, t⟩, happend, h⟩ := bind_eq_ok.mp h
      obtain ⟨rfl, rfl⟩ := Prod.mk.inj (Except.ok.inj h)
      obtain ⟨hwrite, -, rfl, subject, rfl⟩ := appendMessage_ok hmem happend
      exact .replied hwrite
  | close operator conversationID =>
      refine route_served ?_ hok
      intro c t' hcheck h
      obtain ⟨hmem, rfl⟩ := visibleConversation_ok hcheck
      obtain ⟨rfl, rfl⟩ := Prod.mk.inj (Except.ok.inj h)
      unfold closeConversation
      cases hstatus : c.status with
      | closed => exact .alreadyClosed hmem hstatus
      | opened => exact .closed hmem hstatus
  | prune =>
      obtain rfl := Except.ok.inj hok
      exact .pruned

theorem serve_error {f : ChatFailure}
    (h : (st.serve s lib env req).1 = .error f) :
    (st.serve s lib env req).2.tables = st.tables := by
  have hroute : ∀ {α : Type} {tick : ChatLimiter → Ticks Int}
      {check : Except ChatFailure α}
      {keys : α → List (ChatLimiter × String)}
      {act : α → Except ChatFailure (ChatReply × ChatTables)},
      (st.route tick check keys act).1 = .error f →
        (st.route tick check keys act).2.tables = st.tables := by
    intro α tick check keys act herr
    obtain ⟨_, -, htables⟩ | ⟨_, _, _, -, -, hok, -⟩ :=
      route_cases st tick check keys act
    · exact htables
    · rw [hok] at herr
      cases herr
  cases req with
  | prune => cases h
  | _ => exact hroute h

/-! ## What the tables keep -/

theorem mem_put {c d : SupportConversation} (h : d ∈ (t.put c).conversations) :
    d = c ∨ d ∈ t.conversations ∧ d.id ≠ c.id := by
  obtain ⟨e, hmem, rfl⟩ := List.mem_map.mp h
  split
  · exact .inl rfl
  · next hne => exact .inr ⟨hmem, hne⟩

theorem mem_put_of_ne {c d : SupportConversation} (h : d ∈ t.conversations)
    (hne : d.id ≠ c.id) : d ∈ (t.put c).conversations :=
  List.mem_map.mpr ⟨d, h, if_neg hne⟩

theorem mem_put_self {c d : SupportConversation} (h : d ∈ t.conversations)
    (hid : d.id = c.id) : c ∈ (t.put c).conversations :=
  List.mem_map.mpr ⟨d, h, if_pos hid⟩

theorem ids_put (t : ChatTables) (c : SupportConversation) :
    (t.put c).conversations.map (·.id) = t.conversations.map (·.id) := by
  rw [ChatTables.put, List.map_map]
  refine List.map_congr_left fun d _ => ?_
  rw [Function.comp_apply]
  split
  · next h => exact h.symm
  · rfl

/-- What holds of the tables between two requests. -/
structure ChatSound (t : ChatTables) : Prop where
  keys : (t.conversations.map (·.id)).Nodup
  alone : ∀ {c d}, c ∈ t.conversations → d ∈ t.conversations →
    c.status = .opened → d.status = .opened → c.agentID = d.agentID → c = d
  held : ∀ m ∈ t.messages, ∃ c ∈ t.conversations, c.id = m.conversationID
  numbered : ∀ id, NumberedFrom (·.seq) 0 (t.messagesOf id)
  room : ∀ id, t.messageCount id ≤ 500
  sized : ∀ m ∈ t.messages, (utf8 m.body.toList).length ≤ 4096
  ended : ∀ c ∈ t.conversations, c.status = .closed →
    c.tokenHash = "" ∧ c.closedAt.isSome = true

theorem sound_empty : ChatSound {} where
  keys := List.nodup_nil
  alone h := absurd h List.not_mem_nil
  held _ h := absurd h List.not_mem_nil
  numbered _ := trivial
  room _ := Nat.zero_le _
  sized _ h := absurd h List.not_mem_nil
  ended _ h := absurd h List.not_mem_nil

theorem ChatSound.eq_of_id (h : ChatSound t) {c d : SupportConversation}
    (hc : c ∈ t.conversations) (hd : d ∈ t.conversations) (hid : c.id = d.id) :
    c = d :=
  List.inj_on_of_nodup_map h.keys hc hd hid

theorem ChatSound.find (h : ChatSound t) {c : SupportConversation}
    (hc : c ∈ t.conversations) : t.find c.id = some c := by
  cases hfind : t.find c.id with
  | none =>
      have := List.find?_eq_none.mp hfind c hc
      exact absurd (decide_eq_true rfl) this
  | some d =>
      obtain ⟨hd, hid⟩ := mem_of_find hfind
      rw [h.eq_of_id hd hc hid]

/-- The trail is only written to. -/
theorem ChatSound.trail (h : ChatSound t) (trail : List ChatEvent) :
    ChatSound { t with trail } :=
  ⟨h.keys, h.alone, h.held, h.numbered, h.room, h.sized, h.ended⟩

theorem ChatSound.put (h : ChatSound t) {c d : SupportConversation}
    (hc : c ∈ t.conversations) (hid : d.id = c.id)
    (hagent : d.agentID = c.agentID)
    (hstatus : d.status = .opened → c.status = .opened)
    (hended : d.status = .closed →
      d.tokenHash = "" ∧ d.closedAt.isSome = true) :
    ChatSound (t.put d) where
  keys := by
    rw [ids_put]
    exact h.keys
  alone {x y} hx hy hxopen hyopen hsame := by
    have hother : ∀ z ∈ t.conversations, z.id ≠ d.id → z.status = .opened →
        d.status = .opened → z.agentID ≠ d.agentID := by
      intro z hz hne hzopen hdopen hza
      rw [h.alone hz hc hzopen (hstatus hdopen) (hza.trans hagent)] at hne
      exact hne hid.symm
    rcases mem_put hx with rfl | ⟨hxt, hxne⟩ <;>
      rcases mem_put hy with rfl | ⟨hyt, hyne⟩
    · rfl
    · exact absurd hsame.symm (hother y hyt hyne hyopen hxopen)
    · exact absurd hsame (hother x hxt hxne hxopen hyopen)
    · exact h.alone hxt hyt hxopen hyopen hsame
  held m hm := by
    obtain ⟨e, he, hem⟩ := h.held m hm
    by_cases heq : e.id = d.id
    · exact ⟨d, mem_put_self he heq, heq.symm.trans hem⟩
    · exact ⟨e, mem_put_of_ne he heq, hem⟩
  numbered := h.numbered
  room := h.room
  sized := h.sized
  ended x hx hclosed := by
    rcases mem_put hx with rfl | ⟨hx, -⟩
    · exact hended hclosed
    · exact h.ended x hx hclosed

theorem ChatSound.insert (h : ChatSound t) {c : SupportConversation}
    (hfresh : t.find c.id = none) (hidle : t.active c.agentID = [])
    (hopen : c.status = .opened) :
    ChatSound { t with conversations := t.conversations ++ [c] } where
  keys := by
    have hnew : ∀ d ∈ t.conversations, d.id ≠ c.id := fun d hd hid =>
      List.find?_eq_none.mp hfresh d hd (decide_eq_true hid)
    rw [List.map_append, List.nodup_append]
    refine ⟨h.keys, List.nodup_singleton _, ?_⟩
    intro x hx y hy
    obtain ⟨d, hd, rfl⟩ := List.mem_map.mp hx
    rw [List.mem_singleton.mp hy]
    exact hnew d hd
  alone {x y} hx hy hxopen hyopen hsame := by
    have hbusy : ∀ z ∈ t.conversations, z.status = .opened →
        z.agentID ≠ c.agentID := by
      intro z hz hzopen hza
      have := mem_active.mpr ⟨hz, hza, hzopen⟩
      rw [hidle] at this
      cases this
    rcases List.mem_append.mp hx with hx | hx <;>
      rcases List.mem_append.mp hy with hy | hy
    · exact h.alone hx hy hxopen hyopen hsame
    · rw [List.mem_singleton.mp hy] at hsame
      exact absurd hsame (hbusy x hx hxopen)
    · rw [List.mem_singleton.mp hx] at hsame
      exact absurd hsame.symm (hbusy y hy hyopen)
    · rw [List.mem_singleton.mp hx, List.mem_singleton.mp hy]
  held m hm := by
    obtain ⟨d, hd, hid⟩ := h.held m hm
    exact ⟨d, List.mem_append_left _ hd, hid⟩
  numbered := h.numbered
  room := h.room
  sized := h.sized
  ended x hx hclosed := by
    rcases List.mem_append.mp hx with hx | hx
    · exact h.ended x hx hclosed
    · rw [List.mem_singleton.mp hx, hopen] at hclosed
      cases hclosed

/-- On a transcript without a gap the highest number is how many there are. -/
theorem lastSeq_eq {l : List SupportMessage}
    (h : NumberedFrom (·.seq) 0 l) : lastSeq l = l.length := by
  rcases List.eq_nil_or_concat' l with rfl | ⟨l, m, rfl⟩
  · rfl
  · have hlast : m.seq = 0 + ((l ++ [m]).length : Int) := by
      rw [← h.lastNumber_eq, lastNumber, List.getLast?_concat]
      rfl
    have hmax : ((l ++ [m]).map (·.seq)).max? = some m.seq := by
      refine List.max?_eq_some_iff.mpr ⟨?_, ?_⟩
      · exact List.mem_map_of_mem (List.mem_append_right _ List.mem_cons_self)
      · intro n hn
        obtain ⟨x, hx, rfl⟩ := List.mem_map.mp hn
        rw [hlast]
        exact (h.bounds hx).2
    rw [lastSeq, hmax, Option.getD_some, hlast, Int.zero_add]

theorem messagesOf_say (t : ChatTables) (m : SupportMessage) (id : String) :
    { t with messages := t.messages ++ [m] : ChatTables }.messagesOf id =
      t.messagesOf id ++ if m.conversationID = id then [m] else [] := by
  unfold ChatTables.messagesOf
  rw [List.filter_append]
  congr 1
  by_cases h : m.conversationID = id <;> simp [h]

theorem ChatSound.say (h : ChatSound t) {c : SupportConversation}
    {m : SupportMessage} (hc : c ∈ t.conversations) (hm : m.conversationID = c.id)
    (hseq : m.seq = lastSeq (t.messagesOf c.id) + 1)
    (hroom : t.messageCount c.id < 500)
    (hsize : (utf8 m.body.toList).length ≤ 4096) :
    ChatSound { t with messages := t.messages ++ [m] } where
  keys := h.keys
  alone := h.alone
  held x hx := by
    rcases List.mem_append.mp hx with hx | hx
    · exact h.held x hx
    · rw [List.mem_singleton.mp hx]
      exact ⟨c, hc, hm.symm⟩
  numbered id := by
    rw [messagesOf_say]
    split
    · next hid =>
        obtain rfl := hm.symm.trans hid
        refine numberedFrom_append.mpr ⟨h.numbered _, ?_, trivial⟩
        rw [lastSeq_eq (h.numbered _)] at hseq
        rw [Int.zero_add]
        exact hseq
    · rw [List.append_nil]
      exact h.numbered id
  room id := by
    rw [ChatTables.messageCount, messagesOf_say, List.length_append]
    split
    · next hid =>
        obtain rfl := hm.symm.trans hid
        exact hroom
    · exact h.room id
  sized x hx := by
    rcases List.mem_append.mp hx with hx | hx
    · exact h.sized x hx
    · rw [List.mem_singleton.mp hx]
      exact hsize
  ended := h.ended

/-- What looking at a transcript does to a message. -/
def readOf (now : Int) (id : String) (m : SupportMessage) : SupportMessage :=
  if m.conversationID = id ∧ m.sender = .endUser ∧ m.readAt = none then
    { m with readAt := some now }
  else m

theorem readOf_conversationID (now : Int) (id : String) (m : SupportMessage) :
    (readOf now id m).conversationID = m.conversationID := by
  unfold readOf
  split <;> rfl

/-- A message apart from when it was read. -/
def words (m : SupportMessage) : MessageOut × Option String :=
  (m.out, m.operatorID)

theorem readOf_words (now : Int) (id : String) (m : SupportMessage) :
    words (readOf now id m) = words m := by
  unfold readOf
  split <;> rfl

theorem messagesOf_markRead (t : ChatTables) (now : Int) (id id' : String) :
    (markRead t now id).messagesOf id' =
      (t.messagesOf id').map (readOf now id) := by
  have hsame : (fun m : SupportMessage => decide (m.conversationID = id')) ∘
      readOf now id = fun m => decide (m.conversationID = id') := by
    funext m
    rw [Function.comp_apply, readOf_conversationID]
  have hread : (markRead t now id).messages =
      t.messages.map (readOf now id) := rfl
  rw [ChatTables.messagesOf, hread, List.filter_map, hsame,
    ChatTables.messagesOf]

def transcriptOf (t : ChatTables) (id : String) :
    List (MessageOut × Option String) :=
  (t.messagesOf id).map words

theorem transcriptOf_markRead (t : ChatTables) (now : Int) (id id' : String) :
    transcriptOf (markRead t now id) id' = transcriptOf t id' := by
  rw [transcriptOf, messagesOf_markRead, List.map_map]
  exact List.map_congr_left fun m _ => readOf_words now id m

theorem ChatSound.markRead (h : ChatSound t) (now : Int) (id : String) :
    ChatSound (markRead t now id) where
  keys := h.keys
  alone := h.alone
  held m hm := by
    obtain ⟨n, hn, rfl⟩ := List.mem_map.mp hm
    obtain ⟨c, hc, hid⟩ := h.held n hn
    exact ⟨c, hc, hid.trans (readOf_conversationID now id n).symm⟩
  numbered id' := by
    rw [messagesOf_markRead, numberedFrom_map]
    have hsame : (fun m : SupportMessage => m.seq) ∘ readOf now id =
        (·.seq) := by
      funext m
      exact congrArg (·.1.seq) (readOf_words now id m)
    rw [hsame]
    exact h.numbered id'
  room id' := by
    rw [ChatTables.messageCount, messagesOf_markRead, List.length_map]
    exact h.room id'
  sized m hm := by
    obtain ⟨n, hn, rfl⟩ := List.mem_map.mp hm
    have hbody : (readOf now id n).body = n.body :=
      congrArg (·.1.body) (readOf_words now id n)
    have := h.sized n hn
    rw [← hbody] at this
    exact this
  ended := h.ended

/-- What pruning may take away. -/
def Expired (s : ChatSettings) (now : Int) (c : SupportConversation) : Prop :=
  c.status = .closed ∧ s.retentionDays ≠ 0 ∧
    ∃ closedAt, c.closedAt = some closedAt ∧
      closedAt < now - s.retentionDays * 86400000000

/-- Pruning removes whole conversations, and only expired ones. -/
theorem prune_eq (s : ChatSettings) (t : ChatTables) (now : Int) :
    ∃ ids : List String,
      (∀ id ∈ ids, ∃ c ∈ t.conversations, c.id = id ∧ Expired s now c) ∧
      pruneSupportChat s t now = { t with
        messages := t.messages.filter fun m => decide (m.conversationID ∉ ids)
        conversations :=
          t.conversations.filter fun c => decide (c.id ∉ ids) } := by
  unfold pruneSupportChat
  split
  · refine ⟨[], fun _ h => absurd h List.not_mem_nil, ?_⟩
    simp
  · next hdays =>
      refine ⟨_, ?_, rfl⟩
      intro id hid
      obtain ⟨c, hc, rfl⟩ := List.mem_map.mp hid
      obtain ⟨hmem, hexp⟩ := List.mem_filter.mp hc
      rw [Bool.and_eq_true, decide_eq_true_eq, Option.any_eq_true] at hexp
      obtain ⟨hclosed, closedAt, hat, hlt⟩ := hexp
      exact ⟨c, hmem, rfl, hclosed, hdays, closedAt, hat,
        of_decide_eq_true hlt⟩

theorem messagesOf_without (t : ChatTables) (ids : List String)
    (conversations : List SupportConversation) (id : String) :
    { t with
      messages := t.messages.filter fun m => decide (m.conversationID ∉ ids)
      conversations : ChatTables }.messagesOf id =
      if id ∈ ids then [] else t.messagesOf id := by
  unfold ChatTables.messagesOf
  rw [List.filter_filter]
  split
  · next hid =>
      refine List.filter_eq_nil_iff.mpr fun m _ hm => ?_
      rw [Bool.and_eq_true, decide_eq_true_eq, decide_eq_true_eq] at hm
      exact hm.2 (hm.1 ▸ hid)
  · next hid =>
      refine List.filter_congr fun m _ => ?_
      by_cases hm : m.conversationID = id <;> simp [hm, hid]

theorem ChatSound.prune (h : ChatSound t) (s : ChatSettings) (now : Int) :
    ChatSound (pruneSupportChat s t now) := by
  obtain ⟨ids, -, heq⟩ := prune_eq s t now
  rw [heq]
  exact {
    keys := h.keys.sublist (List.filter_sublist.map _)
    alone := fun hx hy => h.alone (List.mem_of_mem_filter hx)
      (List.mem_of_mem_filter hy)
    held := by
      intro m hm
      obtain ⟨hmem, hkept⟩ := List.mem_filter.mp hm
      obtain ⟨c, hc, hid⟩ := h.held m hmem
      exact ⟨c, List.mem_filter.mpr ⟨hc, by rw [hid]; exact hkept⟩, hid⟩
    numbered := by
      intro id
      rw [messagesOf_without]
      split
      · trivial
      · exact h.numbered id
    room := by
      intro id
      rw [ChatTables.messageCount, messagesOf_without]
      split
      · exact Nat.zero_le _
      · exact h.room id
    sized := fun m hm => h.sized m (List.mem_of_mem_filter hm)
    ended := fun c hc => h.ended c (List.mem_of_mem_filter hc) }

theorem join_tables (t : ChatTables) (id operatorID : String) :
    ∃ trail, join t id operatorID = { t with trail } := by
  unfold join
  simp only []
  split
  · exact ⟨_, rfl⟩
  · exact ⟨_, rfl⟩

theorem ChatSound.join (h : ChatSound t) (id operatorID : String) :
    ChatSound (join t id operatorID) := by
  obtain ⟨trail, heq⟩ := join_tables t id operatorID
  rw [heq]
  exact h.trail trail

theorem ChatSound.withMessage (h : ChatSound t) {c : SupportConversation}
    {body : String} (hw : Writable s lib t c body) (now : Int)
    (subject : Option String) (sender : SupportParty)
    (operatorID : Option String) :
    ChatSound (withMessage t (spokenRow c now subject)
      (storedMessage lib t now c body sender operatorID)) := by
  have hput : ChatSound (t.put (spokenRow c now subject)) :=
    h.put hw.member rfl rfl (fun h => h) (h.ended c hw.member)
  refine ChatSound.say hput (mem_put_self (d := c) hw.member rfl) rfl rfl ?_ ?_
  · exact lt_of_lt_of_le hw.room s.messagesBounds.2
  · exact le_trans hw.fits s.messageBytesBounds.2

/-- A request keeps the tables sound. -/
theorem Served.sound (hstep : Served s lib env t req reply t')
    (h : ChatSound t) : ChatSound t' := by
  have hlive : ∀ {c d : SupportConversation}, c ∈ t.conversations →
      d.id = c.id → d.agentID = c.agentID → c.status = .opened →
      d.status = c.status → ChatSound (t.put d) :=
    fun hc hid hagent hopen hst => h.put hc hid hagent (fun _ => hopen)
      fun hclosed => by rw [hst, hopen] at hclosed; cases hclosed
  cases hstep with
  | opened clientID idle fresh =>
      exact (h.insert (c := userRow s lib env.now _ _ _ clientID) fresh idle
        rfl).trail _
  | reopened member opened agent =>
      exact (hlive member (by rfl) (by rfl) opened (by rfl)).trail _
  | technicianOpened clientID idle fresh =>
      exact (h.insert (c := technicianRow s lib env.now _ _ _ clientID) fresh
        idle rfl).trail _
  | technicianFound member opened agent => exact h
  | launched member opened waiting only =>
      exact (hlive member (by rfl) (by rfl) opened (by rfl)).trail _
  | beat => exact h
  | polled member start bearer => exact h
  | agreed member opened bearer already => exact h
  | acknowledged member opened bearer =>
      exact (hlive member (by rfl) (by rfl) opened (by rfl)).trail _
  | sent writable bearer noticed => exact h.withMessage writable _ _ _ _
  | refreshed member opened bearer =>
      exact (hlive member (by rfl) (by rfl) opened (by rfl)).trail _
  | shown member => exact h.markRead _ _
  | replied writable => exact (h.withMessage writable _ _ _ _).join _ _
  | alreadyClosed member closed => exact h
  | closed member opened =>
      exact (h.put (d := closedRow env.now _ _) member rfl rfl
        (fun _ => opened) fun _ => ⟨rfl, rfl⟩).trail _
  | pruned => exact h.prune _ _

theorem serve_sound (h : ChatSound st.tables) :
    ChatSound (st.serve s lib env req).2.tables := by
  cases hreply : (st.serve s lib env req).1 with
  | error f =>
      rw [serve_error hreply]
      exact h
  | ok reply => exact (serve_ok hreply).sound h

/-! ## A short talk -/

def shortSettings : ChatSettings where
  baseUrl := some "https://rmm.example.test"

def shortLib : ChatLib where
  hashToken token :=
    if token = "alpha" then
      "8ed3f6ad685b959ead7022518e1af76cd816f8e8ec7ccdda1ed4018e8f2223f8"
    else "e3b0c44298fc1c149afbf4c8996fb92427ae41e4649b934ca495991b7852b855"
  launchToken id _ := id
  scrubText := id

theorem shortLib_digest (token : String) : shortLib.hashToken token ≠ "" := by
  rw [shortLib]
  simp only []
  split <;> decide

def shortOperator : Operator :=
  ⟨"op-1", "ann@example.test", .operator, false, false, none, none⟩

def shortAuthority : Authority where
  operators := fun id => if id = "op-1" then some shortOperator else none
  memberships := fun _ client =>
    if client = "client-1" then some .clientOperator else none
  directory := ⟨fun _ => some "site-1", fun _ => some "client-1"⟩
  operators_id := by
    intro id operator h
    split at h
    · next hid =>
        cases h
        exact hid.symm
    · cases h

def shortEnv (now : Int) : ChatEnv where
  now := now
  tick _ := ⟨now, now⟩
  agents := fun id =>
    if id = "agent-1" then
      some ⟨.active, "site-1", [supportChatLaunchCapability]⟩
    else none
  authority := shortAuthority

def shortTurn (now : Int) (request : ChatRequest) : ChatTurn :=
  ⟨shortSettings, shortEnv now, request⟩

/-- An end user opens a conversation and agrees to the notice, a message goes
each way, and the operator closes. -/
def closedTalk : List ChatTurn :=
  [shortTurn 0 (.openChat "agent-1" "conv-1" "alpha"),
    shortTurn 1000 (.notice "conv-1" "Bearer" "alpha" "1"),
    shortTurn 2000 (.send "conv-1" "Bearer" "alpha" "hello"),
    shortTurn 4000 (.reply shortOperator "conv-1" "hi"),
    shortTurn 5000 (.close shortOperator "conv-1")]

def closedSample : SupportConversation where
  id := "conv-1"
  agentID := "agent-1"
  clientID := "client-1"
  status := .closed
  subject := some "hello"
  createdAt := 0
  lastMessageAt := some 4000
  closedAt := some 5000
  closedByOperatorID := some "op-1"
  tokenHash := ""
  tokenExpiresAt := 900000000
  noticeVersion := some "1"
  noticeAcknowledgedAt := some 1000

/-! ## Runs -/

theorem serveAll_concat (start : ChatLog × ChatState) (turns : List ChatTurn)
    (turn : ChatTurn) :
    ChatState.serveAll lib start (turns ++ [turn]) =
      ((ChatState.serveAll lib start turns).1 ++
        [(turn, ((ChatState.serveAll lib start turns).2.serve turn.settings lib
          turn.env turn.request).1)],
      ((ChatState.serveAll lib start turns).2.serve turn.settings lib turn.env
        turn.request).2) := by
  unfold ChatState.serveAll
  rw [List.foldl_append]
  rfl

theorem sound_run {start : ChatLog × ChatState} (h : ChatSound start.2.tables)
    (turns : List ChatTurn) :
    ChatSound (ChatState.serveAll lib start turns).2.tables := by
  induction turns using List.reverseRecOn with
  | nil => exact h
  | append_singleton turns turn ih =>
      rw [serveAll_concat]
      exact serve_sound ih

/-- The agent whose conversation a request opens. -/
def opens : ChatRequest → Option String
  | .openChat agentID _ _ => some agentID
  | .openTechnicianChat _ agentID _ _ => some agentID
  | _ => none

theorem ChatSound.active_le (h : ChatSound t) (agentID : String) :
    (t.active agentID).length ≤ 1 := by
  have hnodup : (t.active agentID).Nodup :=
    h.keys.of_map.sublist List.filter_sublist
  rcases hactive : t.active agentID with _ | ⟨c, _ | ⟨d, rest⟩⟩
  · exact Nat.zero_le _
  · exact Nat.le_refl _
  · have hc : c ∈ t.active agentID := by simp [hactive]
    have hd : d ∈ t.active agentID := by simp [hactive]
    obtain ⟨hc, hca, hcopen⟩ := mem_active.mp hc
    obtain ⟨hd, hda, hdopen⟩ := mem_active.mp hd
    obtain rfl := h.alone hc hd hcopen hdopen (hca.trans hda.symm)
    rw [hactive] at hnodup
    exact absurd List.mem_cons_self (List.nodup_cons.mp hnodup).1

/-- Whichever side opens, what it is given is open afterwards. -/
theorem Served.opens {id agentID : String} {token : Option String}
    (hstep : Served s lib env t req (.opened id token) t')
    (hreq : opens req = some agentID) :
    ∃ c ∈ t'.active agentID, c.id = id := by
  cases hstep with
  | opened clientID idle fresh =>
      obtain rfl := Option.some.inj hreq
      exact ⟨_, mem_active.mpr ⟨List.mem_append_right _ List.mem_cons_self, rfl,
        rfl⟩, rfl⟩
  | reopened member opened agent =>
      obtain rfl := Option.some.inj hreq
      exact ⟨_, mem_active.mpr ⟨mem_put_self member rfl, agent, opened⟩, rfl⟩
  | technicianOpened clientID idle fresh =>
      obtain rfl := Option.some.inj hreq
      exact ⟨_, mem_active.mpr ⟨List.mem_append_right _ List.mem_cons_self, rfl,
        rfl⟩, rfl⟩
  | technicianFound member opened agent =>
      obtain rfl := Option.some.inj hreq
      exact ⟨_, mem_active.mpr ⟨member, agent, opened⟩, rfl⟩

/-- However the requests come, an agent has one open conversation at the most,
and that is the one whoever opens is led to. -/
theorem one_open_conversation (turns : List ChatTurn) :
    (∀ agentID, ((ChatState.serveAll lib ([], {}) turns).2.tables.active
        agentID).length ≤ 1) ∧
      ∀ (turn : ChatTurn) (agentID id : String) (token : Option String),
        opens turn.request = some agentID →
        ((ChatState.serveAll lib ([], {}) turns).2.serve turn.settings lib
          turn.env turn.request).1 = .ok (.opened id token) →
        ((((ChatState.serveAll lib ([], {}) turns).2.serve turn.settings lib
          turn.env turn.request).2.tables.active agentID).map (·.id)) = [id] := by
  have hsound : ChatSound (ChatState.serveAll lib ([], {}) turns).2.tables :=
    sound_run sound_empty turns
  refine ⟨hsound.active_le, fun turn agentID id token hreq hreply => ?_⟩
  have hserved := serve_ok hreply
  obtain ⟨c, hc, rfl⟩ := hserved.opens hreq
  have hone := (hserved.sound hsound).active_le agentID
  obtain ⟨d, hd⟩ := List.length_eq_one_iff.mp
    (Nat.le_antisymm hone (List.length_pos_of_mem hc))
  rw [hd] at hc ⊢
  rw [List.mem_singleton.mp hc, List.map_singleton]

theorem closedTalk_leaves :
    let st := (ChatState.serveAll shortLib ([], {}) closedTalk).2
    closedSample ∈ st.tables.conversations ∧
      (transcriptOf st.tables "conv-1").length = 2 ∧
      (st.serve shortSettings shortLib (shortEnv 6000)
        (.openChat "agent-1" "conv-2" "alpha")).1 =
          .ok (.opened "conv-2" (some "alpha")) := by decide +kernel

theorem one_open_conversation_next :
    (∀ agentID, ((ChatState.serveAll shortLib ([], {})
      closedTalk).2.tables.active agentID).length ≤ 1) ∧
      ((((ChatState.serveAll shortLib ([], {}) closedTalk).2.serve shortSettings
        shortLib (shortEnv 6000)
          (.openChat "agent-1" "conv-2" "alpha")).2.tables.active
            "agent-1").map (·.id)) = ["conv-2"] := by
  obtain ⟨hone, hleads⟩ := @one_open_conversation shortLib closedTalk
  exact ⟨hone, hleads (shortTurn 6000 (.openChat "agent-1" "conv-2" "alpha"))
    "agent-1" "conv-2" (some "alpha") rfl closedTalk_leaves.2.2⟩

theorem transcriptOf_say (t : ChatTables) (m : SupportMessage) (id : String) :
    transcriptOf { t with messages := t.messages ++ [m] } id =
      transcriptOf t id ++ if m.conversationID = id then [words m] else [] := by
  rw [transcriptOf, messagesOf_say, List.map_append, transcriptOf]
  split <;> rfl

/-- Storing a message adds it to the transcript of its conversation. -/
theorem transcriptOf_store (t : ChatTables) (now : Int)
    (c : SupportConversation) (subject : Option String) (m : SupportMessage)
    (hm : m.conversationID = c.id) (id : String) :
    transcriptOf (withMessage t (spokenRow c now subject) m) id =
      transcriptOf t id ++ if c.id = id then [words m] else [] := by
  rw [← hm]
  exact transcriptOf_say (t.put _) m id

/-- A closed conversation stays what it was until it is pruned. -/
theorem Served.stays (hstep : Served s lib env t req reply t') (h : ChatSound t)
    {c : SupportConversation} (hc : c ∈ t.conversations)
    (hclosed : c.status = .closed)
    (hkept : req = .prune → ¬ Expired s env.now c) :
    c ∈ t'.conversations ∧ transcriptOf t' c.id = transcriptOf t c.id := by
  have hne : ∀ {d : SupportConversation}, d ∈ t.conversations →
      d.status = .opened → c.id ≠ d.id := by
    intro d hd hopen hid
    rw [h.eq_of_id hc hd hid, hopen] at hclosed
    cases hclosed
  have hput : ∀ {d e : SupportConversation}, d ∈ t.conversations →
      d.status = .opened → e.id = d.id → c ∈ (t.put e).conversations :=
    fun hd hopen hid => mem_put_of_ne hc (hid ▸ hne hd hopen)
  have hsay : ∀ {d : SupportConversation} {body : String}
      {subject : Option String} {sender : SupportParty}
      {operatorID : Option String}, Writable s lib t d body →
      transcriptOf (withMessage t (spokenRow d env.now subject)
        (storedMessage lib t env.now d body sender operatorID)) c.id =
        transcriptOf t c.id := by
    intro d body subject sender operatorID hw
    rw [transcriptOf_store t env.now d subject _ rfl,
      if_neg (hne hw.member hw.opened).symm, List.append_nil]
  cases hstep with
  | opened clientID idle fresh => exact ⟨List.mem_append_left _ hc, rfl⟩
  | reopened member opened agent => exact ⟨hput member opened rfl, rfl⟩
  | technicianOpened clientID idle fresh =>
      exact ⟨List.mem_append_left _ hc, rfl⟩
  | technicianFound member opened agent => exact ⟨hc, rfl⟩
  | launched member opened waiting only => exact ⟨hput member opened rfl, rfl⟩
  | beat => exact ⟨hc, rfl⟩
  | polled member start bearer => exact ⟨hc, rfl⟩
  | agreed member opened bearer already => exact ⟨hc, rfl⟩
  | acknowledged member opened bearer => exact ⟨hput member opened rfl, rfl⟩
  | sent writable bearer noticed =>
      exact ⟨hput writable.member writable.opened rfl, hsay writable⟩
  | refreshed member opened bearer => exact ⟨hput member opened rfl, rfl⟩
  | shown member => exact ⟨hc, transcriptOf_markRead t _ _ _⟩
  | @replied operator d body subject writable =>
      obtain ⟨trail, heq⟩ := join_tables (withMessage t
        (spokenRow d env.now subject) (storedMessage lib t env.now d body
          .technician (some operator.id))) d.id operator.id
      rw [heq]
      exact ⟨hput writable.member writable.opened rfl,
        @hsay d body subject _ _ writable⟩
  | alreadyClosed member closed => exact ⟨hc, rfl⟩
  | closed member opened => exact ⟨hput member opened rfl, rfl⟩
  | pruned =>
      obtain ⟨ids, hids, heq⟩ := prune_eq s t env.now
      have hout : c.id ∉ ids := by
        intro hid
        obtain ⟨d, hd, hdid, hexp⟩ := hids c.id hid
        rw [h.eq_of_id hd hc hdid] at hexp
        exact hkept rfl hexp
      rw [heq]
      refine ⟨List.mem_filter.mpr ⟨hc, decide_eq_true hout⟩, ?_⟩
      rw [transcriptOf, messagesOf_without, if_neg hout, transcriptOf]

/-- The conversation a request presents a bearer for, and the bearer. -/
def bearer : ChatRequest → Option (String × String)
  | .messages id _ token _ => some (id, token)
  | .notice id _ token _ => some (id, token)
  | .send id _ token _ => some (id, token)
  | .refresh id _ token _ => some (id, token)
  | _ => none

theorem verify_ok {now : Int} {c : SupportConversation} {token : String}
    (h : verify lib now c token = .ok ()) :
    lib.hashToken token = c.tokenHash ∧ now < c.tokenExpiresAt := by
  unfold verify at h
  obtain ⟨hhash, h⟩ := require_bind_eq_ok.mp h
  exact ⟨hhash, require_eq_ok.mp h⟩

/-- Who presents a bearer and succeeds holds the one the row has. -/
theorem Served.bearer (hstep : Served s lib env t req reply t')
    {id token : String} (hreq : bearer req = some (id, token)) :
    ∃ c ∈ t.conversations, c.id = id ∧
      lib.hashToken token = c.tokenHash ∧ env.now < c.tokenExpiresAt := by
  cases hstep with
  | polled member start bearer =>
      obtain ⟨rfl, rfl⟩ := Prod.mk.inj (Option.some.inj hreq)
      exact ⟨_, member, rfl, verify_ok bearer⟩
  | agreed member opened bearer already =>
      obtain ⟨rfl, rfl⟩ := Prod.mk.inj (Option.some.inj hreq)
      exact ⟨_, member, rfl, verify_ok bearer⟩
  | acknowledged member opened bearer =>
      obtain ⟨rfl, rfl⟩ := Prod.mk.inj (Option.some.inj hreq)
      exact ⟨_, member, rfl, verify_ok bearer⟩
  | sent writable bearer noticed =>
      obtain ⟨rfl, rfl⟩ := Prod.mk.inj (Option.some.inj hreq)
      exact ⟨_, writable.member, rfl, verify_ok bearer⟩
  | refreshed member opened bearer =>
      obtain ⟨rfl, rfl⟩ := Prod.mk.inj (Option.some.inj hreq)
      exact ⟨_, member, rfl, verify_ok bearer⟩
  | _ => cases hreq

theorem stays_run {start : ChatLog × ChatState} (h : ChatSound start.2.tables)
    {c : SupportConversation} (hc : c ∈ start.2.tables.conversations)
    (hclosed : c.status = .closed) (turns : List ChatTurn)
    (hkept : ∀ turn ∈ turns, turn.request = .prune →
      ¬ Expired turn.settings turn.env.now c) :
    c ∈ (ChatState.serveAll lib start turns).2.tables.conversations ∧
      transcriptOf (ChatState.serveAll lib start turns).2.tables c.id =
        transcriptOf start.2.tables c.id := by
  induction turns using List.reverseRecOn with
  | nil => exact ⟨hc, rfl⟩
  | append_singleton turns turn ih =>
      obtain ⟨hmem, hsame⟩ := ih fun turn hturn =>
        hkept turn (List.mem_append_left _ hturn)
      rw [serveAll_concat, ← hsame]
      rcases hreply : ((ChatState.serveAll lib start turns).2.serve
        turn.settings lib turn.env turn.request).1 with f | reply
      · rw [serve_error hreply]
        exact ⟨hmem, rfl⟩
      · exact (serve_ok hreply).stays (sound_run h turns) hmem hclosed
          (hkept turn (List.mem_append_right _ List.mem_cons_self))

/-- What is closed is over: whatever is asked later, until it is old enough to
be pruned its row and its transcript stay what they were, and no bearer is
accepted on it. -/
theorem closed_conversation_stays (hdigest : ∀ token, lib.hashToken token ≠ "")
    {turns later : List ChatTurn} {c : SupportConversation}
    (hc : c ∈ (ChatState.serveAll lib ([], {}) turns).2.tables.conversations)
    (hclosed : c.status = .closed)
    (hkept : ∀ turn ∈ later, turn.request = .prune →
      ¬ Expired turn.settings turn.env.now c) :
    let before := ChatState.serveAll lib ([], {}) turns
    let after := (ChatState.serveAll lib before later).2
    after.tables.find c.id = some c ∧
      transcriptOf after.tables c.id = transcriptOf before.2.tables c.id ∧
      ∀ s env req token, bearer req = some (c.id, token) →
        ∃ f, (after.serve s lib env req).1 = .error f := by
  intro before after
  have hbefore : ChatSound before.2.tables := sound_run sound_empty turns
  have hsound : ChatSound after.tables := sound_run hbefore later
  obtain ⟨hmem, hsame⟩ := stays_run hbefore hc hclosed later hkept
  refine ⟨hsound.find hmem, hsame, ?_⟩
  intro s env req token hreq
  cases hreply : (after.serve s lib env req).1 with
  | error f => exact ⟨f, rfl⟩
  | ok reply =>
      obtain ⟨d, hd, hid, hhash, -⟩ := (serve_ok hreply).bearer hreq
      rw [hsound.eq_of_id hd hmem hid, (hsound.ended c hmem hclosed).1] at hhash
      exact absurd hhash (hdigest token)

/-- A closed talk, with the pruning and the next talk that come after it. -/
theorem closed_conversation_stays_sample :
    let before := ChatState.serveAll shortLib ([], {}) closedTalk
    let after := (ChatState.serveAll shortLib before
      [shortTurn 6000 .prune,
        shortTurn 7000 (.openChat "agent-1" "conv-2" "alpha"),
        shortTurn 8000 (.reply shortOperator "conv-1" "again")]).2
    (transcriptOf before.2.tables closedSample.id).length = 2 ∧
    after.tables.find closedSample.id = some closedSample ∧
      transcriptOf after.tables closedSample.id =
        transcriptOf before.2.tables closedSample.id ∧
      ∀ s env req token, bearer req = some (closedSample.id, token) →
        ∃ f, (after.serve s shortLib env req).1 = .error f := by
  refine ⟨closedTalk_leaves.2.1, closed_conversation_stays shortLib_digest
    closedTalk_leaves.1 rfl ?_⟩
  intro turn hturn hprune hexp
  obtain ⟨-, -, closedAt, hat, hlt⟩ := hexp
  obtain rfl := Option.some.inj hat
  simp only [List.mem_cons, List.not_mem_nil, or_false] at hturn
  rcases hturn with rfl | rfl | rfl
  · exact absurd hlt (by decide)
  · cases hprune
  · cases hprune

end NodeLink.Proofs.SupportChats
