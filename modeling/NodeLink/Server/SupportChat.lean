import Mathlib.Data.List.Sort
import NodeLink.Lib.Checks
import NodeLink.Lib.Trim
import NodeLink.Lib.Utf8
import NodeLink.Server.CommandTable
import NodeLink.Server.Operators
import NodeLink.Server.RateLimit

/-!
# Support chat

`core/support_chat.py`, the routes of `api/support_chat.py` that write a
conversation or read its transcript, the launch that the heartbeat of
`api/agents.py` carries, and the pruning of closed conversations in
`core/retention.py`. A request locks the row of the agent or the conversation
it works on before it reads, so requests on one conversation come one after
the other. Times are microseconds since the epoch.
-/

namespace NodeLink.Server

open Lib

/-- The settings, within the bounds they are validated against. `baseUrl` is
what `base_url` returns, if it returns. -/
structure ChatSettings where
  baseUrl : Option String
  maxMessageBytes : Nat := 4096
  maxMessages : Nat := 500
  maxOpenPerAgent : Nat := 1
  tokenTtlSeconds : Int := 900
  retentionDays : Nat := 30
  noticeVersion : String := "1"
  messageBytesBounds : 1 ≤ maxMessageBytes ∧ maxMessageBytes ≤ 4096 := by decide
  messagesBounds : 1 ≤ maxMessages ∧ maxMessages ≤ 500 := by decide
  openBounds : maxOpenPerAgent = 1 := by rfl
  ttlBounds : 60 ≤ tokenTtlSeconds ∧ tokenTtlSeconds ≤ 900 := by decide

/-- What the code calls: the token digest, the keyed digest a launch token is
made of, and `scrub_text`. -/
structure ChatLib where
  hashToken : String → String
  launchToken : String → Int → String
  scrubText : String → String

inductive SupportConversationStatus where
  | opened
  | closed
  deriving DecidableEq, Repr

inductive SupportParty where
  | endUser
  | technician
  deriving DecidableEq, Repr

structure SupportConversation where
  id : String
  agentID : String
  clientID : String
  status : SupportConversationStatus := .opened
  openedBy : SupportParty := .endUser
  subject : Option String := none
  createdAt : Int
  lastMessageAt : Option Int := none
  closedAt : Option Int := none
  closedByOperatorID : Option String := none
  tokenHash : String
  tokenExpiresAt : Int
  noticeVersion : Option String := none
  noticeAcknowledgedAt : Option Int := none
  deriving DecidableEq, Repr

structure SupportMessage where
  conversationID : String
  seq : Int
  sender : SupportParty
  operatorID : Option String
  body : String
  createdAt : Int
  readAt : Option Int := none
  deriving DecidableEq, Repr

/-- The audit events of a conversation's life. -/
inductive ChatEvent where
  | opened (conversationID : String) (openedBy : SupportParty)
      (messageCount : Nat)
  | tokenMinted (conversationID reason : String) (tokenExpiresAt : Int)
      (messageCount : Nat)
  | noticeAcknowledged (conversationID noticeVersion : String)
      (messageCount : Nat)
  | technicianJoined (conversationID operatorID : String) (messageCount : Nat)
  | closed (conversationID reason operatorID : String) (messageCount : Nat)
  deriving DecidableEq, Repr

structure ChatTables where
  conversations : List SupportConversation := []
  messages : List SupportMessage := []
  trail : List ChatEvent := []
  deriving DecidableEq, Repr

structure ChatFailure where
  status : Nat
  code : String
  deriving DecidableEq, Repr

/-- `fail` -/
def chatFail (code : String) (status : Nat) : ChatFailure :=
  ⟨status, "support_chat_" ++ code⟩

namespace ChatTables

def find (t : ChatTables) (id : String) : Option SupportConversation :=
  t.conversations.find? fun c => decide (c.id = id)

/-- The attribute writes of a handler, committed. -/
def put (t : ChatTables) (c : SupportConversation) : ChatTables :=
  { t with
    conversations := t.conversations.map fun d => if d.id = c.id then c else d }

def messagesOf (t : ChatTables) (id : String) : List SupportMessage :=
  t.messages.filter fun m => decide (m.conversationID = id)

/-- `message_count` -/
def messageCount (t : ChatTables) (id : String) : Nat :=
  (t.messagesOf id).length

def record (t : ChatTables) (e : ChatEvent) : ChatTables :=
  { t with trail := t.trail ++ [e] }

/-- The open conversations of an agent. -/
def active (t : ChatTables) (agentID : String) : List SupportConversation :=
  t.conversations.filter fun c =>
    decide (c.agentID = agentID) && decide (c.status = .opened)

end ChatTables

/-! ## The write boundary -/

section Core

variable (s : ChatSettings) (lib : ChatLib)

def ChatSettings.tokenTtl : Int := s.tokenTtlSeconds * 1000000

/-- `rotate`, with the token that was drawn. -/
def rotate (now : Int) (token : String) (c : SupportConversation) :
    SupportConversation :=
  { c with
    tokenHash := lib.hashToken token
    tokenExpiresAt := now + s.tokenTtl }

/-- The token of `technician_launch_url`, and the row it leaves. -/
def technicianLaunch (now : Int) (c : SupportConversation) :
    String × SupportConversation :=
  let expires :=
    if c.tokenExpiresAt ≤ now then now + s.tokenTtl else c.tokenExpiresAt
  let token := lib.launchToken c.id expires
  (token, { c with
    tokenHash := lib.hashToken token
    tokenExpiresAt := expires })

/-- `verify` -/
def verify (now : Int) (c : SupportConversation) (token : String) :
    Except ChatFailure Unit := do
  require (lib.hashToken token = c.tokenHash) (chatFail "token_invalid" 403)
  require (now < c.tokenExpiresAt) (chatFail "token_expired" 401)

/-- `require_open` -/
def requireOpen (c : SupportConversation) : Except ChatFailure Unit :=
  require (c.status = .opened) (chatFail "conversation_closed" 409)

/-- What both ways of opening check first. -/
def openable (t : ChatTables) (agentID : String) : Except ChatFailure Unit := do
  require (s.baseUrl.isSome = true) (chatFail "not_configured" 503)
  require ((t.active agentID).length ≤ s.maxOpenPerAgent)
    (chatFail "open_limit" 400)

/-- A new row; its key has to be new. -/
def newConversation (t : ChatTables) (now : Int) (agentID id : String)
    (clientID : Option String) (openedBy : SupportParty) :
    Except ChatFailure SupportConversation :=
  match clientID with
  | none => .error (chatFail "agent_unassigned" 409)
  | some clientID => do
      require (t.find id = none) ⟨500, "integrity"⟩
      return {
        id := id
        agentID := agentID
        clientID := clientID
        openedBy := openedBy
        createdAt := now
        tokenHash := ""
        tokenExpiresAt := now }

/-- `open_conversation` -/
def openConversation (t : ChatTables) (now : Int) (agentID id token : String)
    (clientID : Option String) :
    Except ChatFailure (SupportConversation × ChatTables) := do
  openable s t agentID
  match t.active agentID with
  | c :: _ =>
      let c := { rotate s lib now token c with
        noticeVersion := none, noticeAcknowledgedAt := none }
      let t := t.put c
      return (c, t.record
        (.tokenMinted c.id "open" c.tokenExpiresAt (t.messageCount c.id)))
  | [] =>
      let c ← newConversation t now agentID id clientID .endUser
      let c := rotate s lib now token c
      let t := { t with conversations := t.conversations ++ [c] }
      let t := t.record (.opened c.id c.openedBy (t.messageCount c.id))
      return (c, t.record
        (.tokenMinted c.id "open" c.tokenExpiresAt (t.messageCount c.id)))

/-- `open_technician_conversation` -/
def openTechnicianConversation (t : ChatTables) (now : Int)
    (agentID id token : String) (clientID : Option String) :
    Except ChatFailure (SupportConversation × ChatTables) := do
  openable s t agentID
  match t.active agentID with
  | c :: _ => return (c, t)
  | [] =>
      let c ← newConversation t now agentID id clientID .technician
      let (_, c) := technicianLaunch s lib now (rotate s lib now token c)
      let t := { t with conversations := t.conversations ++ [c] }
      let t := t.record (.opened c.id c.openedBy (t.messageCount c.id))
      return (c, t.record (.tokenMinted c.id "technician_launch"
        c.tokenExpiresAt (t.messageCount c.id)))

/-- The current notice has been acknowledged. -/
def SupportConversation.acknowledged (c : SupportConversation) : Bool :=
  decide (c.noticeVersion = some s.noticeVersion) &&
    c.noticeAcknowledgedAt.isSome

/-- `func.max(seq)`, or 0 -/
def lastSeq (messages : List SupportMessage) : Int :=
  (messages.map (·.seq)).max?.getD 0

/-- `append_message` -/
def appendMessage (t : ChatTables) (now : Int) (c : SupportConversation)
    (body : String) (sender : SupportParty) (operatorID : Option String) :
    Except ChatFailure (SupportMessage × ChatTables) := do
  requireOpen c
  require (sender = .endUser → c.acknowledged s = true)
    (chatFail "notice_required" 409)
  require (strip body ≠ "") (chatFail "message_empty" 400)
  require ((utf8 body.toList).length ≤ s.maxMessageBytes)
    (chatFail "message_too_large" 400)
  let scrubbed := lib.scrubText body
  require ((utf8 scrubbed.toList).length ≤ s.maxMessageBytes)
    (chatFail "message_too_large" 400)
  require (t.messageCount c.id < s.maxMessages) (chatFail "message_limit" 400)
  let m : SupportMessage := {
    conversationID := c.id
    seq := lastSeq (t.messagesOf c.id) + 1
    sender := sender
    operatorID := operatorID
    body := scrubbed
    createdAt := now }
  let subject :=
    if c.subject.getD "" = "" then
      some (String.ofList (scrubbed.toList.take 120))
    else c.subject
  let t := t.put { c with lastMessageAt := some now, subject := subject }
  return (m, { t with messages := t.messages ++ [m] })

/-- `join`: after the reply is stored. -/
def join (t : ChatTables) (conversationID operatorID : String) : ChatTables :=
  let replies := (t.messagesOf conversationID).countP fun m =>
    decide (m.operatorID = some operatorID)
  if replies ≠ 1 then t
  else
    t.record (.technicianJoined conversationID operatorID
      (t.messageCount conversationID))

/-- `close` -/
def closeConversation (t : ChatTables) (now : Int) (c : SupportConversation)
    (operatorID : String) : ChatTables :=
  if c.status = .closed then t
  else
    let t := t.put { c with
      status := .closed, closedAt := some now, tokenHash := ""
      closedByOperatorID := some operatorID }
    t.record (.closed c.id "operator" operatorID (t.messageCount c.id))

/-- `_prune_support_chat`, as `prune_expired` calls it. -/
def pruneSupportChat (t : ChatTables) (now : Int) : ChatTables :=
  if s.retentionDays = 0 then t
  else
    let cutoff := now - s.retentionDays * 86400000000
    let expired (c : SupportConversation) : Bool :=
      decide (c.status = .closed) &&
        c.closedAt.any fun closedAt => decide (closedAt < cutoff)
    let ids := (t.conversations.filter expired).map (·.id)
    { t with
      messages := t.messages.filter fun m => decide (m.conversationID ∉ ids)
      conversations := t.conversations.filter fun c => decide (c.id ∉ ids) }

end Core

/-! ## Routes -/

structure ChatAgent where
  trustState : AgentTrustState
  siteID : String
  supportedCapabilities : List String := []
  deriving DecidableEq, Repr

inductive ChatLimiter where
  | chat
  | send
  | launch
  deriving DecidableEq, Repr

/-- What a request reads besides the chat's own tables. -/
structure ChatEnv where
  now : Int
  /-- `time.monotonic`, as the limiters read it. -/
  tick : ChatLimiter → Ticks Int
  agents : String → Option ChatAgent
  authority : Authority

def ChatEnv.clientOf (env : ChatEnv) (agent : ChatAgent) : Option String :=
  env.authority.directory.siteClient agent.siteID

inductive ChatRequest where
  | openChat (agentID id token : String)
  | openTechnicianChat (operator : Operator) (agentID id token : String)
  | heartbeat (agentID : String)
  | messages (conversationID scheme token : String) (after : Int)
  | notice (conversationID scheme token noticeVersion : String)
  | send (conversationID scheme token body : String)
  | refresh (conversationID scheme token fresh : String)
  | transcript (operator : Operator) (conversationID : String)
  | reply (operator : Operator) (conversationID body : String)
  | close (operator : Operator) (conversationID : String)
  | prune

structure MessageOut where
  seq : Int
  sender : SupportParty
  body : String
  createdAt : Int
  deriving DecidableEq, Repr

def SupportMessage.out (m : SupportMessage) : MessageOut :=
  ⟨m.seq, m.sender, m.body, m.createdAt⟩

inductive ChatReply where
  | opened (conversationID : String) (token : Option String)
  | launch (url : Option (String × String))
  | messages (acknowledged : Bool) (messages : List MessageOut)
  | acknowledged
  | message (message : MessageOut)
  | token (token : String) (expiresAt : Int)
  | transcript (messages : List (MessageOut × Option String))
  | closed
  | pruned
  deriving DecidableEq, Repr

/-- So many in 60 seconds. -/
def perMinute (maxFailures : Int) : LoginRateLimiter Int Int where
  maxFailures
  cutoff now := now - 60000000
  wait first now := max 0 (first + 60000000 - now)

/-- `support_chat_limiter`, `support_chat_send_limiter` and
`support_chat_open_limiter` -/
def ChatLimiter.limiter : ChatLimiter → LoginRateLimiter Int Int
  | .chat => perMinute 90
  | .send => perMinute 20
  | .launch => perMinute 6

abbrev ChatLimits := ChatLimiter → Failures String Int

/-- The limits a route asks, up to the first that refuses. -/
def askLimits (limits : ChatLimits) (tick : ChatLimiter → Ticks Int) :
    List (ChatLimiter × String) → Bool × ChatLimits
  | [] => (true, limits)
  | (which, key) :: rest =>
      let (ok, failures) := which.limiter.limit (limits which) key (tick which)
      let limits := Function.update limits which failures
      if ok then askLimits limits tick rest else (false, limits)

structure ChatState where
  tables : ChatTables := {}
  limits : ChatLimits := fun _ _ => none

/-- A route: what it checks, the limits it asks and what it does. The limits
are kept when a failure rolls the tables back. -/
def ChatState.route {α : Type} (st : ChatState) (tick : ChatLimiter → Ticks Int)
    (check : Except ChatFailure α) (keys : α → List (ChatLimiter × String))
    (act : α → Except ChatFailure (ChatReply × ChatTables)) :
    Except ChatFailure ChatReply × ChatState :=
  match check with
  | .error f => (.error f, st)
  | .ok a =>
      let (ok, limits) := askLimits st.limits tick (keys a)
      if ok then
        match act a with
        | .error f => (.error f, { st with limits })
        | .ok (reply, tables) => (.ok reply, ⟨tables, limits⟩)
      else (.error (chatFail "rate_limited" 429), { st with limits })

section Routes

variable (s : ChatSettings) (lib : ChatLib)

def orFail {α : Type} (o : Option α) (f : ChatFailure) : Except ChatFailure α :=
  match o with
  | none => .error f
  | some a => .ok a

/-- The dependency `authorized`, less its limit. -/
def authorized (env : ChatEnv) (t : ChatTables)
    (conversationID scheme token : String) :
    Except ChatFailure SupportConversation := do
  require (scheme.toLower = "bearer" ∧ token ≠ "" ∧ token.length ≤ 128)
    (chatFail "token_required" 401)
  let c ← orFail (t.find conversationID) (chatFail "token_invalid" 403)
  verify lib env.now c token
  require ((env.agents c.agentID).map (·.trustState) = some .active)
    (chatFail "token_invalid" 403)
  return c

def notFound : ChatFailure := ⟨404, "not_found"⟩

/-- `require_role(OperatorRole.operator)` -/
def requireOperator (operator : Operator) : Except ChatFailure Unit :=
  require (operator.role ≠ .readonly) ⟨403, "role"⟩

/-- `assert_client_action` -/
def assertClientAction (env : ChatEnv) (operator : Operator)
    (clientID : Option String) : Except ChatFailure Unit :=
  match env.authority.clientAction operator clientID .clientOperator with
  | .allowed => .ok ()
  | .notVisible => .error notFound
  | .roleInsufficient => .error ⟨403, "client_role"⟩

/-- `_visible_conversation` -/
def visibleConversation (env : ChatEnv) (t : ChatTables) (operator : Operator)
    (conversationID : String) (acting : Bool) :
    Except ChatFailure SupportConversation := do
  requireOperator operator
  let c ← orFail (t.find conversationID) notFound
  if acting then assertClientAction env operator (some c.clientID)
  else
    require (env.authority.assertClientVisible operator (some c.clientID))
      notFound
  return c

/-- `MessageIn` -/
def messageIn (body : String) : Bool :=
  decide (1 ≤ body.length ∧ body.length ≤ 8192)

def bySeq (a b : SupportMessage) : Prop := a.seq ≤ b.seq

instance : DecidableRel bySeq := fun a b =>
  inferInstanceAs (Decidable (a.seq ≤ b.seq))

def supportChatLaunchCapability : String := "support-chat-launch-v1"

/-- The conversation whose launch the heartbeat asks for: the oldest one. -/
def launchConversation (t : ChatTables) (agentID : String) :
    Option SupportConversation :=
  ((t.conversations.filter fun c => decide (c.agentID = agentID) &&
      decide (c.openedBy = .technician) && decide (c.status = .opened) &&
        c.noticeAcknowledgedAt.isNone).insertionSort
    fun a b => a.createdAt ≤ b.createdAt).head?

/-- The heartbeat's launch: a token that lapsed is minted anew. -/
def heartbeatLaunch (t : ChatTables) (now : Int) (agentID : String) :
    Except ChatFailure (ChatReply × ChatTables) :=
  match launchConversation t agentID with
  | none => .ok (.launch none, t)
  | some c => do
      require (s.baseUrl.isSome = true) (chatFail "not_configured" 503)
      let (token, launched) := technicianLaunch s lib now c
      let t := t.put launched
      let t :=
        if launched.tokenExpiresAt = c.tokenExpiresAt then t
        else t.record (.tokenMinted c.id "technician_launch"
          launched.tokenExpiresAt (t.messageCount c.id))
      return (.launch (some (c.id, token)), t)

/-- The messages of a transcript are read by looking at it. -/
def markRead (t : ChatTables) (now : Int) (conversationID : String) :
    ChatTables :=
  { t with
    messages := t.messages.map fun m =>
      if m.conversationID = conversationID ∧ m.sender = .endUser ∧
          m.readAt = none then { m with readAt := some now }
      else m }

/-- One request, served. -/
def ChatState.serve (env : ChatEnv) (st : ChatState) :
    ChatRequest → Except ChatFailure ChatReply × ChatState
  | .openChat agentID id token =>
      st.route env.tick
        (do
          let agent ← orFail (env.agents agentID) ⟨500, "agent"⟩
          require (agent.trustState = .active) (chatFail "agent_untrusted" 403)
          return agent)
        (fun _ => [(.launch, agentID)])
        (fun agent => do
          let (c, t) ← openConversation s lib st.tables env.now agentID id token
            (env.clientOf agent)
          return (.opened c.id (some token), t))
  | .openTechnicianChat operator agentID id token =>
      st.route env.tick
        (do
          requireOperator operator
          let agent ← orFail (env.agents agentID) notFound
          assertClientAction env operator (env.clientOf agent)
          require (agent.trustState = .active) (chatFail "agent_untrusted" 409)
          require (supportChatLaunchCapability ∈ agent.supportedCapabilities)
            (chatFail "unsupported" 409)
          return agent)
        (fun _ => [(.launch, agentID)])
        (fun agent => do
          let (c, t) ← openTechnicianConversation s lib st.tables env.now
            agentID id token (env.clientOf agent)
          return (.opened c.id none, t))
  | .heartbeat agentID =>
      st.route env.tick (.ok ()) (fun _ => []) fun _ =>
        -- A quarantined agent's heartbeat is answered before this.
        if (env.agents agentID).map (·.trustState) = some .active then
          heartbeatLaunch s lib st.tables env.now agentID
        else .ok (.launch none, st.tables)
  | .messages conversationID scheme token after =>
      st.route env.tick
        (authorized lib env st.tables conversationID scheme token)
        (fun _ => [(.chat, lib.hashToken token)])
        (fun c => do
          require (0 ≤ after) ⟨422, "after"⟩
          let tail := ((st.tables.messagesOf c.id).filter fun m =>
            decide (after < m.seq)).insertionSort bySeq
          return (.messages (c.acknowledged s)
            (if c.acknowledged s then (tail.take s.maxMessages).map (·.out)
            else []), st.tables))
  | .notice conversationID scheme token noticeVersion =>
      st.route env.tick
        (authorized lib env st.tables conversationID scheme token)
        (fun _ => [(.chat, lib.hashToken token)])
        (fun c => do
          require (1 ≤ noticeVersion.length ∧ noticeVersion.length ≤ 32)
            ⟨422, "notice_version"⟩
          requireOpen c
          require (noticeVersion = s.noticeVersion)
            (chatFail "notice_version" 409)
          if c.acknowledged s then return (.acknowledged, st.tables)
          let t := st.tables.put { c with
            noticeVersion := some noticeVersion
            noticeAcknowledgedAt := some env.now }
          return (.acknowledged, t.record
            (.noticeAcknowledged c.id noticeVersion (t.messageCount c.id))))
  | .send conversationID scheme token body =>
      st.route env.tick
        (authorized lib env st.tables conversationID scheme token)
        -- A body that is refused has passed the dependency, not the handler.
        (fun c => (.chat, lib.hashToken token) ::
          if messageIn body then [(.send, c.id)] else [])
        (fun c => do
          require (messageIn body) ⟨422, "body"⟩
          let (m, t) ← appendMessage s lib st.tables env.now c body .endUser
            none
          return (.message m.out, t))
  | .refresh conversationID scheme token fresh =>
      st.route env.tick
        (authorized lib env st.tables conversationID scheme token)
        (fun _ => [(.chat, lib.hashToken token)])
        (fun c => do
          requireOpen c
          let c := rotate s lib env.now fresh c
          let t := st.tables.put c
          return (.token fresh c.tokenExpiresAt, t.record (.tokenMinted c.id
            "refresh" c.tokenExpiresAt (t.messageCount c.id))))
  | .transcript operator conversationID =>
      st.route env.tick
        (visibleConversation env st.tables operator conversationID false)
        (fun _ => [])
        (fun c =>
          let rows := (st.tables.messagesOf c.id).insertionSort bySeq
          .ok (.transcript (rows.map fun m => (m.out,
              if m.sender = .technician then
                (m.operatorID.bind env.authority.operators).map (·.email)
              else none)),
            markRead st.tables env.now c.id))
  | .reply operator conversationID body =>
      st.route env.tick
        (do
          requireOperator operator
          require (messageIn body) ⟨422, "body"⟩
          visibleConversation env st.tables operator conversationID true)
        (fun _ => [])
        (fun c => do
          let (m, t) ← appendMessage s lib st.tables env.now c body .technician
            (some operator.id)
          return (.message m.out, join t c.id operator.id))
  | .close operator conversationID =>
      st.route env.tick
        (visibleConversation env st.tables operator conversationID true)
        (fun _ => [])
        (fun c => .ok (.closed,
          closeConversation st.tables env.now c operator.id))
  | .prune =>
      (.ok .pruned, { st with tables := pruneSupportChat s st.tables env.now })

end Routes

/-- A request, with the settings of the process that serves it. -/
structure ChatTurn where
  settings : ChatSettings
  env : ChatEnv
  request : ChatRequest

/-- What was asked and what was answered. -/
abbrev ChatLog := List (ChatTurn × Except ChatFailure ChatReply)

/-- Requests one after the other. -/
def ChatState.serveAll (lib : ChatLib) (start : ChatLog × ChatState)
    (turns : List ChatTurn) : ChatLog × ChatState :=
  turns.foldl (fun (log, st) turn =>
    let (reply, st) := st.serve turn.settings lib turn.env turn.request
    (log ++ [(turn, reply)], st)) start

end NodeLink.Server
