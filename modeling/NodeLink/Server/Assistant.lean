import NodeLink.Lib.Checks
import NodeLink.Lib.PyValue
import NodeLink.Lib.Variables
import NodeLink.Server.CommandTable
import NodeLink.Server.Operators

/-!
# The assistant

`core/assistant/service.py` and what it rests on in `core/assistant/policy.py`
and `tools.py`: conversations, the admission of runs, the rounds of a run with
the provider and the tools, cancellation and pruning. Each transaction is one
step; between two of them others may act, time passes, and the operator's
authority and the endpoints may change in any way. A request may be given up
before any of its steps, and any step may raise, with or without having taken
effect.

What cleans, measures or validates a text is a parameter, and so is the
provider. Bodies are kept as they decrypt. Times are in microseconds.
-/

namespace NodeLink.Server.Assistant

open Lib

/-! ## Tables -/

inductive RunStatus where
  | running
  | completed
  | failed
  | cancelled
  deriving DecidableEq, Repr

/-- What a tool answered, with the endpoints it read. -/
structure Evidence where
  tool : String
  outcome : String
  sources : List String
  data : PyValue
  deriving DecidableEq

structure RunBody where
  question : String
  answer : String := ""
  evidence : List Evidence := []
  accessEndpointIDs : List String := []
  deriving DecidableEq

/-- `AssistantRun`. A body that was cleared is `none`. -/
structure AssistantRun where
  id : String
  conversationID : String
  requestID : String
  status : RunStatus := .running
  createdAt : Int
  deadline : Int
  body : Option RunBody
  toolCount : Nat := 0
  usageTokens : Int := 0
  deriving DecidableEq

structure AssistantConversation where
  id : String
  operatorID : String
  clientID : String
  createdAt : Int
  expiresAt : Int
  deriving DecidableEq, Repr

/-- An audit event `assistant.activity`. -/
structure Activity where
  createdAt : Int
  actor : String
  organizationID : String
  agentID : Option String := none
  conversationID : String
  runID : Option String
  tool : String
  outcome : String
  deriving DecidableEq, Repr

/-- What the provider is sent. Whose answer a prior one is, is noted beside
it. -/
inductive InputItem where
  | user (content : String)
  | assistant (runID content : String)
  | output (item : PyValue)
  | toolOutput (callID : PyValue) (result : Evidence)
  deriving DecidableEq

/-- A run as it was settled, and the prompt its answer was made from. -/
structure Settlement where
  run : AssistantRun
  prompt : List InputItem
  deriving DecidableEq

structure AssistantEndpoint where
  siteID : String
  trustState : AgentTrustState
  deriving DecidableEq, Repr

/-- `configured` is whether the provider and the history key are. -/
structure AssistantSettings where
  enabled : Bool
  pilotOperatorIDs : List String
  configured : Bool
  deriving DecidableEq, Repr

/-- The tables, and what the assistant reads of the rest of the server.
`callers` is whom a bearer stands for. `settled` and `drawn`, the identifiers
that were generated, only record. -/
structure AssistantWorld where
  conversations : List AssistantConversation := []
  runs : List AssistantRun := []
  trail : List Activity := []
  settled : List Settlement := []
  drawn : List String := []
  now : Int
  callers : String → Option Operator
  authority : Authority
  clients : String → Bool
  endpoints : String → Option AssistantEndpoint
  settings : AssistantSettings

/-- The exceptions a request tells apart. -/
inductive AssistantFault where
  | http (status : Nat) (code : String)
  | provider (code : String)
  | timeout
  | cancelled
  | other
  deriving DecidableEq, Repr

/-- What any step may raise. -/
def AssistantFault.interrupts : AssistantFault → Bool
  | .timeout | .cancelled | .other => true
  | .http .. | .provider _ => false

/-! ## Limits -/

def maxTools : Nat := 6
def maxSeconds : Int := 45
def maxInputBytes : Nat := 65536
def maxResponseBytes : Nat := 131072
def maxUsage : Int := 40000
def retentionDays : Int := 30
def maxConversations : Nat := 20
def maxDailyRuns : Nat := 100
def maxConversationRuns : Nat := 20
def maxInherited : Nat := 150
def maxOutputItems : Nat := 16

def second : Int := 1000000
def day : Int := 86400 * second

/-! ## Permission -/

/-- `availability` -/
def availability (s : AssistantSettings) (operator : Operator) : String :=
  if !s.enabled then "disabled"
  else if !s.pilotOperatorIDs.isEmpty &&
      !s.pilotOperatorIDs.contains operator.id then "disabled"
  else if !s.configured then "unconfigured"
  else "available"

/-- `require_available` -/
def requireAvailable (s : AssistantSettings) (operator : Operator) :
    Except AssistantFault Unit :=
  require (availability s operator = "available")
    (.http 503 ("assistant_" ++ availability s operator))

section Policy

variable (w : AssistantWorld)

/-- `authorize` up to the conversation. -/
def authorizeOperator (authorization : String) :
    Except AssistantFault Operator := do
  let operator ← match w.callers authorization with
    | none => .error (.http 401 "Could not validate credentials")
    | some operator => .ok operator
  requireAvailable w.settings operator
  return operator

/-- The end of `authorize`: the client exists and is the operator's. -/
def authorizeClient (operator : Operator) (clientID : String) :
    Except AssistantFault Unit := do
  require (w.clients clientID) (.http 404 "Client not found")
  require (w.authority.assertClientVisible operator (some clientID))
    (.http 404 "Client not found")

/-- `authorize`, for a conversation. -/
def authorize (authorization conversationID : String) :
    Except AssistantFault (Operator × AssistantConversation) := do
  let operator ← authorizeOperator w authorization
  let conversation ← match w.conversations.find? fun c =>
      decide (c.id = conversationID ∧ c.operatorID = operator.id ∧
        w.now < c.expiresAt) with
    | none => .error (.http 404 "Conversation not found")
    | some conversation => .ok conversation
  authorizeClient w operator conversation.clientID
  return (operator, conversation)

/-- An endpoint of the client that the operator may read, revoked ones
excepted. -/
def visible (operator : Operator) (clientID endpointID : String) : Bool :=
  (w.endpoints endpointID).any fun endpoint =>
    let owner := w.authority.directory.siteClient endpoint.siteID
    decide (owner = some clientID) &&
      w.authority.isClientVisible operator owner &&
      decide (endpoint.trustState ≠ .revoked)

/-- `check_targets` -/
def checkTargets (operator : Operator) (clientID : String)
    (targets : List String) : Except AssistantFault Unit :=
  require (∀ target ∈ targets, visible w operator clientID target)
    (.http 404 "Referenced endpoints are no longer accessible")

end Policy

/-! ## Transactions -/

/-- The endpoints that evidence names. -/
def sourcesOf (evidence : List Evidence) : List String :=
  evidence.flatMap (·.sources)

/-- `set(a) | set(b)`, sorted. -/
def sortedUnion (a b : List String) : List String :=
  (a ++ b).dedup.insertionSort (· ≤ ·)

/-- `unseal` -/
def unsealBody (row : AssistantRun) : Except AssistantFault RunBody :=
  match row.body with
  | none => .error (.http 503 "assistant_history_unavailable")
  | some body => .ok body

section Tables

variable (w : AssistantWorld)

def AssistantWorld.run (runID : String) : Option AssistantRun :=
  w.runs.find? fun r => decide (r.id = runID)

/-- Whether a run is in a conversation of the operator's. -/
def owns (operatorID : String) (r : AssistantRun) : Bool :=
  w.conversations.any fun c =>
    decide (c.id = r.conversationID ∧ c.operatorID = operatorID)

/-- `record` -/
def record (operatorID : String) (conversation : AssistantConversation)
    (runID : Option String) (tool outcome : String) (target : Option String) :
    AssistantWorld :=
  { w with trail := w.trail ++ [{
      createdAt := w.now
      actor := operatorID
      organizationID := conversation.clientID
      agentID := target
      conversationID := conversation.id
      runID
      tool
      outcome }] }

/-- The conversation of a run has expired. -/
def expiredBy (time : Int) (r : AssistantRun) : Bool :=
  w.conversations.any fun c =>
    decide (c.id = r.conversationID ∧ c.expiresAt ≤ time)

/-- `prune` -/
def prune (time : Int) : AssistantWorld :=
  let cleared := w.runs.map fun r =>
    if expiredBy w time r then { r with body := none } else r
  let kept := cleared.filter fun r =>
    !(expiredBy w time r && decide (r.createdAt ≤ time - day))
  { w with
    runs := kept
    conversations := w.conversations.filter fun c =>
      !(decide (c.expiresAt ≤ time) &&
        !kept.any fun r => decide (r.conversationID = c.id)) }

/-- The transaction of `create_conversation`, which holds the operator's row.
A refusal undoes the pruning. -/
def createConversation (operator : Operator) (clientID id : String) :
    Except AssistantFault (AssistantConversation × AssistantWorld) := do
  let pruned := prune w w.now
  let count := pruned.conversations.countP fun c =>
    decide (c.operatorID = operator.id ∧ w.now < c.expiresAt)
  require (count < maxConversations) (.http 429 "assistant_conversation_limit")
  let row : AssistantConversation := {
    id
    operatorID := operator.id
    clientID
    createdAt := w.now
    expiresAt := w.now + retentionDays * day }
  let added := { pruned with
    conversations := pruned.conversations ++ [row]
    drawn := pruned.drawn ++ [id] }
  return (row, record added operator.id row none "conversation" "created" none)

/-- The transaction of `reserve`, which holds the operator's row. The
conversation was read before that. -/
def reserve (operator : Operator) (conversation : AssistantConversation)
    (requestID question id : String) :
    Except AssistantFault ((String × Bool) × AssistantWorld) := do
  match w.runs.find? fun r => decide (r.conversationID = conversation.id ∧
      r.requestID = requestID) with
  | some old => return ((old.id, false), w)
  | none =>
    require (¬ w.runs.any fun r => owns w operator.id r &&
      decide (r.status = .running ∧ w.now < r.deadline))
      (.http 409 "assistant_busy")
    let daily := w.runs.countP fun r => owns w operator.id r &&
      decide (w.now - day < r.createdAt)
    let count := w.runs.countP fun r =>
      decide (r.conversationID = conversation.id)
    require (daily < maxDailyRuns ∧ count < maxConversationRuns)
      (.http 429 "assistant_run_limit")
    -- the foreign key of a conversation that was pruned meanwhile
    require (∃ c ∈ w.conversations, c.id = conversation.id) .other
    let row : AssistantRun := {
      id
      conversationID := conversation.id
      requestID
      createdAt := w.now
      deadline := w.now + maxSeconds * second
      body := some { question } }
    let added := { w with runs := w.runs ++ [row], drawn := w.drawn ++ [id] }
    return ((id, true),
      record added operator.id conversation (some id) "run" "started" none)

/-- `checked` -/
def checked (authorization conversationID runID : String)
    (targets : List String) :
    Except AssistantFault (Operator × AssistantConversation × AssistantRun) := do
  let (operator, conversation) ← authorize w authorization conversationID
  let row ← match w.run runID with
    | none => .error (.http 404 "Run not found")
    | some row => .ok row
  require (row.conversationID = conversationID) (.http 404 "Run not found")
  require (row.status = .running) (.provider "cancelled")
  require (w.now < row.deadline) (.provider "timeout")
  checkTargets w operator conversation.clientID targets
  return (operator, conversation, row)

/-- A run as it is shown. -/
structure RunView where
  id : String
  requestID : String
  status : RunStatus
  createdAt : Int
  toolCount : Nat
  usageTokens : Int
  body : RunBody
  deriving DecidableEq

def restrictedQuestion : String := "History restricted"

/-- The body shown in place of one that rests on what the operator may no
longer read. -/
def restricted : RunBody where
  question := restrictedQuestion
  answer := "Referenced endpoints are no longer accessible in this client."

/-- The endpoints a body rests on. -/
def RunBody.targets (body : RunBody) : List String :=
  body.accessEndpointIDs ++ sourcesOf body.evidence

/-- `present` -/
def present (operator : Operator) (conversation : AssistantConversation)
    (row : AssistantRun) : Except AssistantFault RunView := do
  let stored ← unsealBody row
  let body := match checkTargets w operator conversation.clientID
      stored.targets with
    | .ok _ => stored
    | .error _ => restricted
  let view : RunView := {
    id := row.id
    requestID := row.requestID
    status := row.status
    createdAt := row.createdAt
    toolCount := row.toolCount
    usageTokens := row.usageTokens
    body }
  if row.status = .running ∧ row.deadline ≤ w.now then
    return { view with
      status := .failed
      body := { body with answer := "The investigation timed out or was " ++
        "interrupted. Retry to start a new run." } }
  else return view

structure HistoryOut where
  id : String
  clientID : String
  expiresAt : Int
  runs : List RunView
  deriving DecidableEq

/-- The order of `created_at`, then `id`. -/
def AssistantRun.before (a b : AssistantRun) : Bool :=
  decide (a.createdAt < b.createdAt ∨
    a.createdAt = b.createdAt ∧ a.id ≤ b.id)

/-- `history` -/
def history (authorization conversationID : String) :
    Except AssistantFault HistoryOut := do
  let (operator, conversation) ← authorize w authorization conversationID
  let rows := ((w.runs.filter fun r =>
    decide (r.conversationID = conversationID)).insertionSort
      fun a b => a.before b).take maxConversationRuns
  let runs ← rows.mapM (present w operator conversation)
  return ⟨conversation.id, conversation.clientID, conversation.expiresAt, runs⟩

/-- The runs that an update of one run's row, while it is running, finds. -/
def stillRunning (runID : String) (r : AssistantRun) : Bool :=
  decide (r.id = runID ∧ r.status = .running)

/-- The update that `cancel` and `finish` make of a run that is still running,
with its event; `none` where it is not. -/
def settle (operatorID : String) (conversation : AssistantConversation)
    (runID : String) (outcome : String) (prompt : List InputItem)
    (edit : AssistantRun → AssistantRun) : Option AssistantWorld :=
  if w.runs.any (stillRunning runID) then
    some (record { w with
      runs := w.runs.map fun r => if stillRunning runID r then edit r else r
      settled := w.settled ++ (w.runs.filter (stillRunning runID)).map
        fun r => ⟨edit r, prompt⟩ }
      operatorID conversation (some runID) "run" outcome none)
  else none

end Tables

/-! ## Steps -/

/-- The arguments a tool was called with, as they were validated. -/
structure ToolArgs where
  endpointID : Option String
  json : String
  deriving DecidableEq, Repr

/-- What a run ends with. -/
structure RunEnd where
  status : RunStatus
  body : RunBody
  calls : Nat
  usage : Int
  prompt : List InputItem

def RunStatus.value : RunStatus → String
  | .running => "running"
  | .completed => "completed"
  | .failed => "failed"
  | .cancelled => "cancelled"

def RunEnd.edit (e : RunEnd) (r : AssistantRun) : AssistantRun :=
  { r with
    status := e.status
    body := some e.body
    toolCount := e.calls
    usageTokens := e.usage }

inductive AssistantOp where
  | authorizeClient (authorization clientID : String)
  | createConversation (operator : Operator) (clientID : String)
  | authorize (authorization conversationID : String)
  | reserve (operator : Operator) (conversation : AssistantConversation)
    (requestID question : String)
  | checked (authorization conversationID runID : String)
    (targets : List String)
  | history (authorization conversationID : String)
  | respond (inputs : List InputItem)
  | execute (name : String) (args : ToolArgs) (operator : Operator)
    (conversation : AssistantConversation)
  | record (operator : Operator) (conversation : AssistantConversation)
    (runID tool outcome : String) (target : Option String)
  | findRequest (conversationID requestID : String)
  | cancel (operator : Operator) (conversation : AssistantConversation)
    (runID : String)
  | findRun (conversationID runID : String)
  | finish (conversation : AssistantConversation) (runID : String)
    (settlement : RunEnd)
  | prune (time : Int)

abbrev AssistantRes : AssistantOp → Type
  | .authorizeClient .. => Operator
  | .createConversation .. => AssistantConversation
  | .authorize .. => Operator × AssistantConversation
  | .reserve .. => String × Bool
  | .checked .. => Operator × AssistantConversation × AssistantRun
  | .history .. => HistoryOut
  | .respond _ => List (String × PyValue)
  | .execute .. => Evidence
  | .record .. => Unit
  | .findRequest .. => Option AssistantRun
  | .cancel .. => Bool
  | .findRun .. => Option (AssistantRun × AssistantConversation)
  | .finish .. => Unit
  | .prune _ => Unit

abbrev AssistantAns (o : AssistantOp) : Type :=
  Except AssistantFault (AssistantRes o)

/-- The endpoints that a request's latest check found visible. -/
structure AssistantSession where
  verified : List String := []
  deriving DecidableEq, Repr

/-- The answer and the world of a transaction that is undone when it fails. -/
def Commits {α : Type} (w : AssistantWorld)
    (outcome : Except AssistantFault (α × AssistantWorld))
    (a : Except AssistantFault α) (w' : AssistantWorld) : Prop :=
  match outcome with
  | .ok (x, v) => a = .ok x ∧ w' = v
  | .error e => a = .error e ∧ w' = w

/-- What a step does when it is not interrupted. An identifier that is drawn
was not drawn before. -/
def happens (w : AssistantWorld) (l : AssistantSession) :
    (o : AssistantOp) → AssistantAns o → AssistantWorld →
      AssistantSession → Prop
  | .authorizeClient authorization clientID, a, w', l' =>
    a = (do
      let operator ← authorizeOperator w authorization
      authorizeClient w operator clientID
      return operator) ∧ w' = w ∧ l' = l
  | .createConversation operator clientID, a, w', l' =>
    (∃ id, id ∉ w.drawn ∧
      Commits w (createConversation w operator clientID id) a w') ∧ l' = l
  | .authorize authorization conversationID, a, w', l' =>
    a = authorize w authorization conversationID ∧ w' = w ∧ l' = l
  | .reserve operator conversation requestID question, a, w', l' =>
    (∃ id, id ∉ w.drawn ∧ Commits w
      (reserve w operator conversation requestID question id) a w') ∧ l' = l
  | .checked authorization conversationID runID targets, a, w', l' =>
    a = checked w authorization conversationID runID targets ∧ w' = w ∧
      l' = if a.isOk then ⟨targets⟩ else l
  | .history authorization conversationID, a, w', l' =>
    a = history w authorization conversationID ∧ w' = w ∧ l' = l
  | .respond _, _, w', l' => w' = w ∧ l' = l
  | .execute name _ operator conversation, a, w', l' =>
    (∀ result, a = .ok result → result.tool = name ∧
      ∀ source ∈ result.sources,
        visible w operator conversation.clientID source) ∧
      w' = w ∧ l' = l
  | .record operator conversation runID tool outcome target, a, w', l' =>
    a = .ok () ∧ l' = l ∧ w' = record w operator.id conversation (some runID)
      tool outcome target
  | .findRequest conversationID requestID, a, w', l' =>
    a = .ok (w.runs.find? fun r => decide (r.conversationID = conversationID ∧
      r.requestID = requestID)) ∧ w' = w ∧ l' = l
  | .cancel operator conversation runID, a, w', l' =>
    let after := settle w operator.id conversation runID "cancelled" []
      fun r => { r with status := .cancelled }
    a = .ok after.isSome ∧ w' = after.getD w ∧ l' = l
  | .findRun conversationID runID, a, w', l' =>
    a = .ok (do
      let row ← w.run runID
      let conversation ← w.conversations.find? fun c =>
        decide (c.id = conversationID)
      return (row, conversation)) ∧ w' = w ∧ l' = l
  | .finish conversation runID e, a, w', l' =>
    -- the operator is there as long as the conversation is
    a = .ok () ∧ l' = l ∧ w' = (settle w conversation.operatorID conversation
      runID e.status.value e.prompt e.edit).getD w
  | .prune time, a, w', l' =>
    time ≤ w.now ∧ a = .ok () ∧ w' = prune w time ∧ l' = l

/-- What a step may do: it may be interrupted before or after its effect. -/
def does (w : AssistantWorld) (l : AssistantSession) (o : AssistantOp)
    (a : AssistantAns o) (w' : AssistantWorld) (l' : AssistantSession) : Prop :=
  happens w l o a w' l' ∨
    ∃ fault, fault.interrupts = true ∧ a = .error fault ∧ l' = l ∧
      (w' = w ∨ ∃ b m, happens w l o b w' m)

/-! ## A run -/

/-- What cleans, measures and validates texts. -/
structure AssistantLib where
  cleanText : String → Nat → String
  inputBytes : List InputItem → Nat
  responseBytes : List (String × PyValue) → Nat
  validate : String → String → Option ToolArgs

/-- `REGISTRY` -/
def registry : List String :=
  ["list_endpoints", "endpoint_detail", "inventory", "inventory_history",
    "inventory_changes", "active_alerts", "patch_compliance"]

/-- `parse`, `none` where it raises a `ValueError`. -/
def parse (lib : AssistantLib) (name arguments : Option PyValue) :
    Option (String × ToolArgs) :=
  match name, arguments with
  | some (.str name), some (.str arguments) =>
    if registry.contains name && decide (arguments.length ≤ 4096) then
      (lib.validate name arguments).map fun args => (name, args)
    else none
  | _, _ => none

/-! ### Reading a response -/

/-- Attribute access on what is no dictionary raises. -/
def membersOf : PyValue → Except AssistantFault (List (String × PyValue))
  | .obj members => .ok members
  | _ => .error .other

/-- `item.get("type") == name` -/
def hasType (name : String) (item : PyValue) : Except AssistantFault Bool := do
  let members ← membersOf item
  return match PyValue.get members "type" with
    | some (.str text) => decide (text = name)
    | _ => false

/-- What a loop over a value goes through. The letters of a text and the keys
of a dictionary have no `get`. -/
def itemsOf : Option PyValue → Except AssistantFault (List PyValue)
  | none => .ok []
  | some (.arr items) => .ok items
  | some (.str text) => if text = "" then .ok [] else .error .other
  | some (.obj members) => if members.isEmpty then .ok [] else .error .other
  | some _ => .error .other

/-- `response.get("usage", {})` -/
def usageOf (response : List (String × PyValue)) :
    Except AssistantFault (List (String × PyValue)) :=
  match PyValue.get response "usage" with
  | none => .ok []
  | some usage => membersOf usage

/-- The tokens that were used. -/
def totalTokens (response : List (String × PyValue)) :
    Except AssistantFault Int := do
  let usage ← usageOf response
  match PyValue.get usage "total_tokens" with
  | some (.num (.int used)) =>
    if used < 0 then .error (.provider "invalid_response") else .ok used
  | _ => .error (.provider "invalid_response")

def outputOf (response : List (String × PyValue)) :
    Except AssistantFault (List PyValue) :=
  match PyValue.get response "output" with
  | some (.arr output) =>
    if maxOutputItems < output.length then
      .error (.provider "invalid_response")
    else .ok output
  | _ => .error (.provider "invalid_response")

/-- The texts of the parts of a message. -/
def partTexts (item : PyValue) : Except AssistantFault (List String) := do
  if ← hasType "message" item then
    let parts ← itemsOf (PyValue.get (← membersOf item) "content")
    let texts ← (← parts.filterM (hasType "output_text")).mapM membersOf
    texts.mapM fun part =>
      match PyValue.get part "text" with
      | none => .ok ""
      | some (.str text) => .ok text
      | some _ => .error .other
  else return []

/-- `"\n".join(chunks)` -/
def outputText (output : List PyValue) : Except AssistantFault String := do
  let chunks ← output.mapM partTexts
  return "\n".intercalate chunks.flatten

/-! ### Rounds -/

/-- The variables of `run`. -/
structure RunVars where
  evidence : List Evidence := []
  calls : Nat := 0
  usage : Int := 0
  priorEvidence : List (List String) := []
  accessIDs : List String := []
  inputs : List InputItem := []
  answer : String := ""
  outcome : RunStatus := .failed

/-- The endpoints of `evidence + prior_evidence`. -/
def RunVars.targets (v : RunVars) : List String :=
  sourcesOf v.evidence ++ v.priorEvidence.flatten

abbrev AssistantM (α : Type) :=
  ExceptT AssistantFault (Prog AssistantOp AssistantAns) α

abbrev RunM (α : Type) :=
  VarProg RunVars AssistantFault AssistantOp AssistantAns α

def ask (o : AssistantOp) : RunM (AssistantRes o) := VarProg.ask o

def request (o : AssistantOp) : AssistantM (AssistantRes o) :=
  VarProg.request o

/-- A prior run that is taken up: its answer, and what it rests on. -/
def takeUp (runID : String) (v : RunVars) (old : RunView) : RunVars :=
  if old.id ≠ runID ∧ old.status = .completed ∧
      old.body.question ≠ restrictedQuestion then
    let targets := old.body.targets.dedup
    if maxInherited < (v.accessIDs ∪ targets).length then v
    else { v with
      accessIDs := v.accessIDs ∪ targets
      priorEvidence := v.priorEvidence ++ [targets]
      inputs := v.inputs ++ [.user old.body.question,
        .assistant old.id (old.body.answer.take 2000).toString] }
  else v

def cautionText : String :=
  "Some requested data is missing, partial, or could not be retrieved. " ++
  "Review the limitations and available observations below; this run cannot " ++
  "establish a complete answer."

def toolFailed (name : String) : Evidence where
  tool := name
  outcome := "unavailable"
  sources := []
  data := .obj [("note",
    .str "Tool failed; no observation was established.")]

section Run

variable (lib : AssistantLib) (authorization conversationID runID : String)

/-- The last round: the provider has called no tool. -/
def conclude (output : List PyValue) : RunM Unit := do
  let text ← VarProg.ofExcept (outputText output)
  let answer := lib.cleanText text 8000
  let v ← get
  if answer = "" ∨ v.evidence = [] then
    throw (.provider "no_evidence")
  let observed := v.evidence.all fun item => decide (item.outcome = "observed")
  modify fun v => { v with
    answer := if observed then answer else cautionText
    outcome := .completed }

/-- `execute`, with what becomes of its exceptions. A cancellation is no
`Exception`. -/
def callTool (name : String) (args : ToolArgs) (operator : Operator)
    (conversation : AssistantConversation) : RunM Evidence :=
  tryCatch (ask (.execute name args operator conversation)) fun fault => do
    match fault with
    | .http status code =>
      ask (.record operator conversation runID name "denied" none)
      throw (.http status code)
    | .timeout => throw .timeout
    | .cancelled => throw .cancelled
    | _ => return toolFailed name

/-- One function call of a response. -/
def takeCall (operator : Operator) (conversation : AssistantConversation)
    (item : PyValue) : RunM Unit := do
  let members ← VarProg.ofExcept (membersOf item)
  modify fun v => { v with calls := v.calls + 1 }
  match parse lib (PyValue.get members "name")
      (PyValue.get members "arguments") with
  | none =>
    ask (.record operator conversation runID "rejected" "invalid_tool" none)
    throw (.provider "invalid_tool")
  | some (name, args) =>
    let v ← get
    let (operator, conversation, _) ←
      ask (.checked authorization conversationID runID v.targets)
    let result ← callTool runID name args operator conversation
    modify fun v => { v with evidence := v.evidence ++ [result] }
    ask (.record operator conversation runID name result.outcome
      args.endpointID)
    match PyValue.get members "call_id" with
    | none => throw .other
    | some callID =>
      modify fun v =>
        { v with inputs := v.inputs ++ [.toolOutput callID result] }

def takeCalls (operator : Operator) (conversation : AssistantConversation) :
    List PyValue → RunM Unit
  | [] => return ()
  | item :: items => do
    takeCall lib authorization conversationID runID operator conversation item
    takeCalls operator conversation items

/-- One round, and whether it was the last. -/
def takeRound : RunM Bool := do
  let v ← get
  let _ ← ask (.checked authorization conversationID runID v.targets)
  if maxInputBytes < lib.inputBytes v.inputs then
    throw (.provider "input_limit")
  let response ← ask (.respond v.inputs)
  let (operator, conversation, _) ←
    ask (.checked authorization conversationID runID v.targets)
  if maxResponseBytes < lib.responseBytes response then
    throw (.provider "response_limit")
  let used ← VarProg.ofExcept (totalTokens response)
  modify fun v => { v with usage := v.usage + used }
  if maxUsage < v.usage + used then throw (.provider "usage_limit")
  let output ← VarProg.ofExcept (outputOf response)
  let functions ←
    VarProg.ofExcept (output.filterM (hasType "function_call"))
  if functions.isEmpty then
    conclude lib output
    return true
  else
    if maxTools < v.calls + functions.length then
      throw (.provider "tool_limit")
    modify fun v => { v with inputs := v.inputs ++ output.map .output }
    takeCalls lib authorization conversationID runID operator conversation
      functions
    return false

def takeRounds : Nat → RunM Unit
  | 0 => throw (.provider "tool_limit")
  | n + 1 => do
    if ← takeRound lib authorization conversationID runID then return ()
    else takeRounds n

/-- The body of `run` that is under the time limit. -/
def investigate : RunM Unit := do
  let (_, _, row) ← ask (.checked authorization conversationID runID [])
  let payload ← VarProg.ofExcept (unsealBody row)
  let prior ← ask (.history authorization conversationID)
  let recent := prior.runs.drop (prior.runs.length - 7)
  modify fun v => recent.foldl (takeUp runID) v
  modify fun v => { v with inputs := v.inputs ++ [.user payload.question] }
  takeRounds lib authorization conversationID runID (maxTools + 1)

/-- `finish` -/
def finish (status : RunStatus) (answer : String) (evidence : List Evidence)
    (v : RunVars) (inherited : List String) : AssistantM Unit := do
  match ← request (.findRun conversationID runID) with
  | none => return ()
  | some (row, conversation) =>
    let stored ← ExceptT.mk (pure (unsealBody row))
    request (.finish conversation runID {
      status
      body := {
        question := stored.question
        answer
        evidence
        accessEndpointIDs := sortedUnion inherited (sourcesOf evidence) }
      calls := v.calls
      usage := v.usage
      prompt := v.inputs })

def accessChanged : String := "Access changed; no answer is available."

def limitsReached : String :=
  "The investigation could not be completed within its limits or the " ++
  "provider is unavailable. No complete answer was established. Retry if " ++
  "needed."

def investigationFailed : String :=
  "The investigation failed. No complete answer was established. Retry if " ++
  "needed."

/-- The end of `run`. Every target is checked once more after the last wait for
the provider. -/
def conclusion (v : RunVars) : AssistantM Unit := do
  let checkedOnce ← ExceptT.lift
    (request (.checked authorization conversationID runID v.targets)).run
  match checkedOnce with
  | .ok _ =>
    finish conversationID runID v.outcome v.answer v.evidence v v.accessIDs
  | .error (.provider _) =>
    finish conversationID runID .failed
      "Investigation cancelled or timed out." [] v v.accessIDs
  | .error (.http status code) =>
    finish conversationID runID .failed accessChanged [] v []
    throw (.http status code)
  | .error fault => throw fault

/-- `run` -/
def run : AssistantM Unit := do
  let (result, v) ← ExceptT.lift
    ((investigate lib authorization conversationID runID).run.run {})
  match result with
  | .ok _ => conclusion authorization conversationID runID v
  | .error (.http status code) =>
    finish conversationID runID .failed accessChanged [] v []
    throw (.http status code)
  | .error .cancelled =>
    finish conversationID runID .cancelled "Investigation cancelled." [] v []
    throw .cancelled
  | .error .other =>
    conclusion authorization conversationID runID
      { v with answer := investigationFailed }
  | .error _ =>
    conclusion authorization conversationID runID
      { v with answer := limitsReached }

end Run

/-! ## Requests -/

inductive AssistantRequest where
  | create (authorization clientID : String)
  | show (authorization conversationID : String)
  | run (authorization conversationID requestID message : String)
  | cancel (authorization conversationID requestID : String)
  | prune (time : Int)
  deriving DecidableEq, Repr

/-- The routes of `api/assistant.py`, and the pruning in `core/retention.py`.
A message is as its schema left it. -/
def AssistantRequest.handler (lib : AssistantLib) :
    AssistantRequest → AssistantM Unit
  | .create authorization clientID => do
    let operator ← request (.authorizeClient authorization clientID)
    let _ ← request (.createConversation operator clientID)
  | .show authorization conversationID => do
    let _ ← request (.history authorization conversationID)
  | .run authorization conversationID requestID message => do
    let (operator, conversation) ←
      request (.authorize authorization conversationID)
    let (runID, created) ← request (.reserve operator conversation requestID
      (lib.cleanText message 4000))
    if created then
      Assistant.run lib authorization conversationID runID
    let _ ← request (.history authorization conversationID)
  | .cancel authorization conversationID requestID => do
    let (operator, conversation) ←
      request (.authorize authorization conversationID)
    match ← request (.findRequest conversationID requestID) with
    | none => throw (.http 404 "Run not found")
    | some row =>
      let _ ← request (.cancel operator conversation row.id)
  | .prune time => do
    let _ ← request (.prune time)

def AssistantRequest.program (lib : AssistantLib) (r : AssistantRequest) :
    Prog AssistantOp AssistantAns Unit := do
  let _ ← (r.handler lib).run
  return ()

/-- What the rest of the server and the clock may do. -/
def drift (w w' : AssistantWorld) : Prop :=
  w.now ≤ w'.now ∧ w'.conversations = w.conversations ∧ w'.runs = w.runs ∧
    w'.trail = w.trail ∧ w'.settled = w.settled ∧ w'.drawn = w.drawn

/-- The requests, and what goes on beside them. -/
def rules (lib : AssistantLib) :
    Rules AssistantOp AssistantAns AssistantWorld AssistantSession where
  does := does
  starts l p := l = {} ∧ ∃ r : AssistantRequest, p = r.program lib
  drift := drift

abbrev AssistantCrew :=
  Crew AssistantOp AssistantAns AssistantWorld AssistantSession

/-- Any number of steps. -/
abbrev AssistantSteps (lib : AssistantLib) : AssistantCrew → AssistantCrew → Prop :=
  Crew.Run (rules lib) fun _ _ _ => True

/-- A server the assistant has not been used on. -/
def AssistantWorld.Fresh (w : AssistantWorld) : Prop :=
  w.conversations = [] ∧ w.runs = [] ∧ w.trail = [] ∧ w.settled = [] ∧
    w.drawn = []

/-- The states that requests lead to from there. -/
def Reached (lib : AssistantLib) (c : AssistantCrew) : Prop :=
  ∃ w : AssistantWorld, w.Fresh ∧ AssistantSteps lib { world := w } c

end NodeLink.Server.Assistant
