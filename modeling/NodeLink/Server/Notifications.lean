import Mathlib

/-!
# Alert notifications: webhooks and emails

The two delivery queues, `core/webhook_notifications.py` and
`core/email_notifications.py`, are one program up to their names: rows that
are due are claimed under a lease in one short transaction, sent one by one
with no lock held, and each attempt is completed in a transaction of its own.
What differs is a `Pipeline`. Times are in microseconds.
-/

namespace NodeLink.Server.Notifications

/-- `WebhookDeliveryStatus` and `EmailDeliveryStatus`; an email that is
`delivered` here is `sent` there. -/
inductive DeliveryStatus where
  | pending
  | sending
  | retrying
  | delivered
  | failed
  | suppressed
deriving DecidableEq, Repr

/-- `WebhookAttemptStatus` and `EmailAttemptStatus`. -/
inductive AttemptStatus where
  | sending
  | delivered
  | retrying
  | failed
deriving DecidableEq, Repr

/-- A delivery row. `answer` is `last_http_status` of a webhook and
`provider_message_id` of an email, `deliveredAt` is `sent_at` there. -/
structure Delivery (A : Type) where
  id : String
  status : DeliveryStatus
  attemptCount : Int := 0
  maxAttempts : Int
  nextAttemptAt : Int
  claimedAt : Option Int := none
  answer : Option A := none
  lastErrorCode : Option String := none
  lastRetryRequestID : Option String := none
  deliveredAt : Option Int := none
  createdAt : Int
  updatedAt : Int
deriving DecidableEq, Repr

/-- An attempt row; `answer` is its `http_status` or `provider_message_id`. -/
structure Attempt (A : Type) where
  id : String
  deliveryID : String
  attemptNumber : Int
  status : AttemptStatus
  answer : Option A := none
  errorCode : Option String := none
  createdAt : Int
  completedAt : Option Int := none
deriving DecidableEq, Repr

structure Outbox (A : Type) where
  deliveries : List (Delivery A) := []
  attempts : List (Attempt A) := []
deriving DecidableEq, Repr

/-- `WebhookError` and `ProviderError`; `answer` is the error's
`http_status`. -/
structure SendError (A : Type) where
  code : String
  retryable : Bool
  answer : Option A := none
deriving DecidableEq, Repr

/-! ## The two pipelines -/

structure Limits where
  batchSize : Int
  maxAttempts : Int
  backoffBaseSeconds : Int
  backoffMaxSeconds : Int
  claimTimeoutSeconds : Int
deriving DecidableEq, Repr

/-- The ranges both pipelines ask for. -/
structure Limits.InRange (limits : Limits) : Prop where
  batchSize : 1 ≤ limits.batchSize ∧ limits.batchSize ≤ 100
  maxAttempts : 1 ≤ limits.maxAttempts ∧ limits.maxAttempts ≤ 20
  backoffBaseSeconds :
    1 ≤ limits.backoffBaseSeconds ∧ limits.backoffBaseSeconds ≤ 3600
  backoffMaxSeconds :
    1 ≤ limits.backoffMaxSeconds ∧ limits.backoffMaxSeconds ≤ 86400
  claimTimeoutSeconds :
    30 ≤ limits.claimTimeoutSeconds ∧ limits.claimTimeoutSeconds ≤ 3600

/-- What the pipelines differ in. `ready` is what has to hold for rows to be
queued and claimed, `failedAnswer` what a failed attempt leaves where the
answer is kept, of what stood there and what the error carries, and
`faultCode` the code of an exception that is not an error of the sender's. -/
structure Pipeline (A : Type) where
  limits : Limits
  ready : Bool
  inRange : ready = true → limits.InRange
  failedAnswer : Option A → Option A → Option A
  faultCode : String

/-- The webhook settings, which `Settings` refuses to build out of range. -/
structure WebhookSettings where
  limits : Limits
  inRange : limits.InRange

/-- `core/webhook_notifications.py` -/
def webhookPipeline (config : WebhookSettings) : Pipeline Int where
  limits := config.limits
  ready := true
  inRange := fun _ => config.inRange
  failedAnswer := fun _ answer => answer
  faultCode := "webhook_error"

/-- The email settings; `otherProblems` are those `configuration_problems`
finds in the provider, the addresses and the dashboard URL. -/
structure EmailSettings where
  limits : Limits
  otherProblems : List String

def limitProblem (name : String) (value minimum maximum : Int) : List String :=
  if minimum ≤ value ∧ value ≤ maximum then []
  else [s!"{name} must be between {minimum} and {maximum}"]

/-- `configuration_problems` -/
def configurationProblems (config : EmailSettings) : List String :=
  config.otherProblems ++
    limitProblem "EMAIL_ALERT_BATCH_SIZE" config.limits.batchSize 1 100 ++
    limitProblem "EMAIL_ALERT_MAX_ATTEMPTS" config.limits.maxAttempts 1 20 ++
    limitProblem "EMAIL_ALERT_BACKOFF_BASE_SECONDS"
      config.limits.backoffBaseSeconds 1 3600 ++
    limitProblem "EMAIL_ALERT_BACKOFF_MAX_SECONDS"
      config.limits.backoffMaxSeconds 1 86400 ++
    limitProblem "EMAIL_ALERT_CLAIM_TIMEOUT_SECONDS"
      config.limits.claimTimeoutSeconds 30 3600 ++
    (if config.limits.backoffMaxSeconds < config.limits.backoffBaseSeconds then
      ["EMAIL_ALERT_BACKOFF_MAX_SECONDS must be at least EMAIL_ALERT_BACKOFF_BASE_SECONDS"]
    else [])

theorem limitProblem_eq_nil {name : String} {value minimum maximum : Int} :
    limitProblem name value minimum maximum = [] ↔
      minimum ≤ value ∧ value ≤ maximum := by
  unfold limitProblem
  split
  · next h => exact iff_of_true rfl h
  · next h => exact iff_of_false (List.cons_ne_nil _ _) h

theorem inRange_of_configurationProblems {config : EmailSettings}
    (h : configurationProblems config = []) : config.limits.InRange := by
  simp only [configurationProblems, List.append_eq_nil_iff,
    limitProblem_eq_nil] at h
  obtain ⟨⟨⟨⟨⟨⟨-, hbatch⟩, hattempts⟩, hbase⟩, hmax⟩, htimeout⟩, -⟩ := h
  exact ⟨hbatch, hattempts, hbase, hmax, htimeout⟩

/-- `core/email_notifications.py`, with a provider that is not disabled. -/
def emailPipeline (config : EmailSettings) : Pipeline String where
  limits := config.limits
  ready := decide (configurationProblems config = [])
  inRange := fun h => inRange_of_configurationProblems (of_decide_eq_true h)
  failedAnswer := fun answer _ => answer
  faultCode := "provider_error"

variable {A : Type}

/-! ## Claims and their recovery -/

def seconds (n : Int) : Int := n * 1000000

/-- The rows `_recover_expired_claims` selects; `locked` rows are skipped. -/
def expiredClaims (p : Pipeline A) (locked : String → Bool) (now : Int)
    (outbox : Outbox A) : List (Delivery A) :=
  ((outbox.deliveries.filter fun d =>
      decide (d.status = .sending) &&
        d.claimedAt.any (· < now - seconds p.limits.claimTimeoutSeconds) &&
        !locked d.id).insertionSort fun a b =>
      toLex (a.claimedAt.getD 0, a.id) ≤ toLex (b.claimedAt.getD 0, b.id)).take
    p.limits.batchSize.toNat

/-- There are attempts left. -/
def Delivery.attemptsLeft (d : Delivery A) : Bool :=
  decide (d.attemptCount < d.maxAttempts)

def Delivery.recover (now : Int) (d : Delivery A) : Delivery A :=
  { d with
    status := if d.attemptsLeft then .retrying else .failed
    nextAttemptAt := if d.attemptsLeft then now else d.nextAttemptAt
    claimedAt := none
    lastErrorCode := some "worker_lease_expired"
    updatedAt := now }

def Attempt.recover (retrying : Bool) (now : Int) (a : Attempt A) : Attempt A :=
  { a with
    status := if retrying then .retrying else .failed
    errorCode := some "worker_lease_expired"
    completedAt := some now }

/-- `attempts_by_delivery`, which keeps the last of the sending attempts; the
rows come in the order of the table. -/
def sendingAttempt (outbox : Outbox A) (deliveryID : String) :
    Option (Attempt A) :=
  (outbox.attempts.filter fun a =>
    decide (a.deliveryID = deliveryID) && decide (a.status = .sending)).getLast?

/-- What `_recover_expired_claims` makes of an attempt. -/
def recoverAttempt (outbox : Outbox A) (expired : List (Delivery A)) (now : Int)
    (a : Attempt A) : Attempt A :=
  match expired.find? fun d => decide (d.id = a.deliveryID) with
  | none => a
  | some d =>
    if (sendingAttempt outbox d.id).any fun b => decide (b.id = a.id) then
      a.recover d.attemptsLeft now
    else a

/-- What `_recover_expired_claims` makes of a delivery. -/
def recoverDelivery (expired : List (Delivery A)) (now : Int)
    (d : Delivery A) : Delivery A :=
  if d.id ∈ expired.map (·.id) then d.recover now else d

/-- `_recover_expired_claims` -/
def recoverExpiredClaims (p : Pipeline A) (locked : String → Bool) (now : Int)
    (outbox : Outbox A) : Outbox A where
  deliveries := outbox.deliveries.map
    (recoverDelivery (expiredClaims p locked now outbox) now)
  attempts := outbox.attempts.map
    (recoverAttempt outbox (expiredClaims p locked now outbox) now)

/-- The rows `_claim_due` selects. -/
def dueDeliveries (p : Pipeline A) (locked : String → Bool) (now : Int)
    (outbox : Outbox A) : List (Delivery A) :=
  ((outbox.deliveries.filter fun d =>
      (decide (d.status = .pending) || decide (d.status = .retrying)) &&
        decide (d.nextAttemptAt ≤ now) && !locked d.id).insertionSort fun a b =>
      toLex (a.nextAttemptAt, toLex (a.createdAt, a.id)) ≤
        toLex (b.nextAttemptAt, toLex (b.createdAt, b.id))).take
    p.limits.batchSize.toNat

def Delivery.claim (now : Int) (d : Delivery A) : Delivery A :=
  { d with
    status := .sending
    attemptCount := d.attemptCount + 1
    claimedAt := some now
    updatedAt := now }

def claimDelivery (due : List (Delivery A)) (now : Int) (d : Delivery A) :
    Delivery A :=
  if d.id ∈ due.map (·.id) then d.claim now else d

/-- The attempt that is added for a claimed row. -/
def newAttempt (uuid : String → String) (now : Int) (d : Delivery A) :
    Attempt A where
  id := uuid d.id
  deliveryID := d.id
  attemptNumber := d.attemptCount + 1
  status := .sending
  createdAt := now

/-- What a worker keeps of a claimed row. -/
structure Claim where
  deliveryID : String
  attemptID : String
deriving DecidableEq, Repr

/-- The primary key of the attempts, and
`ux_alert_webhook_attempt_number`. -/
def attemptKeysUnique (attempts : List (Attempt A)) : Bool :=
  decide ((attempts.map (·.id)).Nodup) &&
    decide ((attempts.map fun a => (a.deliveryID, a.attemptNumber)).Nodup)

/-- The claiming half of `_claim_due`, unless a key is taken. -/
def claimRows (due : List (Delivery A)) (now : Int) (uuid : String → String)
    (outbox : Outbox A) : Option (List Claim × Outbox A) :=
  if attemptKeysUnique (outbox.attempts ++ due.map (newAttempt uuid now)) then
    some (due.map fun d => ⟨d.id, uuid d.id⟩,
      { deliveries := outbox.deliveries.map (claimDelivery due now)
        attempts := outbox.attempts ++ due.map (newAttempt uuid now) })
  else none

/-- The rows the second query of `_claim_due` has to skip: a row that was
recovered in this very transaction is locked by nobody else. -/
def stillLocked (p : Pipeline A) (lockedExpired lockedDue : String → Bool)
    (now : Int) (outbox : Outbox A) (id : String) : Bool :=
  lockedDue id &&
    decide (id ∉ (expiredClaims p lockedExpired now outbox).map (·.id))

/-- `_claim_due`. The rows that are locked when its two queries run are given;
there is no result where the transaction is rolled back. -/
def claimDue (p : Pipeline A) (lockedExpired lockedDue : String → Bool)
    (uuid : String → String) (now : Int) (outbox : Outbox A) :
    Option (List Claim × Outbox A) :=
  claimRows
    (dueDeliveries p (stillLocked p lockedExpired lockedDue now outbox) now
      (recoverExpiredClaims p lockedExpired now outbox))
    now uuid (recoverExpiredClaims p lockedExpired now outbox)

/-! ## Completion -/

/-- `_retry_delay` -/
def retryDelay (p : Pipeline A) (attemptNumber : Int) : Int :=
  min p.limits.backoffMaxSeconds
    (p.limits.backoffBaseSeconds * 2 ^ (attemptNumber - 1).toNat)

/-- `retrying` in `_complete_attempt`. -/
def SendError.retries (error : SendError A) (d : Delivery A) : Bool :=
  error.retryable && d.attemptsLeft

def Delivery.complete (p : Pipeline A) (result : Except (SendError A) A)
    (completedAt : Int) (d : Delivery A) : Delivery A :=
  match result with
  | .ok answer =>
    { d with
      status := .delivered
      answer := some answer
      lastErrorCode := none
      deliveredAt := some completedAt
      claimedAt := none
      updatedAt := completedAt }
  | .error error =>
    { d with
      status := if error.retries d then .retrying else .failed
      answer := p.failedAnswer d.answer error.answer
      lastErrorCode := some error.code
      nextAttemptAt :=
        if error.retries d then
          completedAt + seconds (retryDelay p d.attemptCount)
        else d.nextAttemptAt
      claimedAt := none
      updatedAt := completedAt }

/-- What becomes of the attempt; `d` is the delivery as it was read. -/
def Attempt.complete (p : Pipeline A) (result : Except (SendError A) A)
    (completedAt : Int) (d : Delivery A) (a : Attempt A) : Attempt A :=
  match result with
  | .ok answer =>
    { a with
      status := .delivered
      answer := some answer
      completedAt := some completedAt }
  | .error error =>
    { a with
      status := if error.retries d then .retrying else .failed
      answer := p.failedAnswer a.answer error.answer
      errorCode := some error.code
      completedAt := some completedAt }

/-- `_complete_attempt`: the two rows are looked up by their ids and written as
they stand. -/
def completeAttempt (p : Pipeline A) (claim : Claim)
    (result : Except (SendError A) A) (completedAt : Int) (outbox : Outbox A) :
    Outbox A :=
  match outbox.deliveries.find? fun d => decide (d.id = claim.deliveryID),
      outbox.attempts.find? fun a => decide (a.id = claim.attemptID) with
  | some d, some _ =>
    { deliveries := outbox.deliveries.map fun d =>
        if d.id = claim.deliveryID then d.complete p result completedAt else d
      attempts := outbox.attempts.map fun a =>
        if a.id = claim.attemptID then a.complete p result completedAt d else a }
  | _, _ => outbox

/-! ## Queueing and the operator's retry -/

/-- A row of `enqueue_alert_event`. -/
def queuedDelivery (p : Pipeline A) (suppressed : Bool) (queuedAt : Int)
    (id : String) : Delivery A where
  id
  status := if suppressed then .suppressed else .pending
  maxAttempts := p.limits.maxAttempts
  nextAttemptAt := queuedAt
  createdAt := queuedAt
  updatedAt := queuedAt

/-- `enqueue_alert_event`, unless an id is taken. -/
def enqueueAlertEvent (p : Pipeline A) (ids : List String) (suppressed : Bool)
    (queuedAt : Int) (outbox : Outbox A) : Option (Outbox A) :=
  if p.ready then
    if (outbox.deliveries.map (·.id) ++ ids).Nodup then
      some { outbox with
        deliveries := outbox.deliveries ++
          ids.map (queuedDelivery p suppressed queuedAt) }
    else none
  else some outbox

inductive RetryError where
  | notFound
  | invalidState (status : DeliveryStatus)
  | limitReached
deriving DecidableEq, Repr

def Delivery.retry (requestID : String) (now : Int) (d : Delivery A) :
    Delivery A :=
  { d with
    status := .retrying
    nextAttemptAt := now
    claimedAt := none
    maxAttempts := max d.maxAttempts (d.attemptCount + 1)
    lastRetryRequestID := some requestID
    updatedAt := now }

/-- `retry_monitoring_alert_webhook_delivery` and its email twin. -/
def retryDelivery (deliveryID requestID : String) (now : Int)
    (outbox : Outbox A) : Except RetryError (Outbox A) :=
  match outbox.deliveries.find? fun d => decide (d.id = deliveryID) with
  | none => .error .notFound
  | some d =>
    if d.lastRetryRequestID = some requestID then .ok outbox
    else if d.status ≠ .failed then .error (.invalidState d.status)
    else if d.attemptCount ≥ 20 then .error .limitReached
    else .ok { outbox with
      deliveries := outbox.deliveries.map fun d =>
        if d.id = deliveryID then d.retry requestID now else d }

/-! ## Workers -/

/-- A worker inside `process_due_deliveries`: the claimed rows it has not done
yet, and whether the completion of the first one, after a send that went
well, has raised, so that the last `except` branch is next. -/
structure Worker where
  queue : List Claim := []
  failing : Bool := false
deriving DecidableEq, Repr

structure System (A : Type) where
  outbox : Outbox A := {}
  workers : Nat → Worker := fun _ => {}

inductive Event (A : Type) where
  | enqueue (ids : List String) (suppressed : Bool) (queuedAt : Int)
  | operatorRetry (deliveryID requestID : String) (now : Int)
  /-- A worker with nothing to do claims a batch. -/
  | claim (worker : Nat) (lockedExpired lockedDue : String → Bool)
      (uuid : String → String) (now : Int)
  /-- The first row of the batch has been sent, or not, and its attempt is
  completed. -/
  | complete (worker : Nat) (result : Except (SendError A) A)
      (completedAt : Int)
  /-- The completion raises, before or after it took effect. -/
  | completeRaises (worker : Nat) (result : Except (SendError A) A)
      (completedAt : Int) (committed : Bool)
  | crash (worker : Nat)

namespace System

def setWorker (s : System A) (worker : Nat) (w : Worker) (outbox : Outbox A) :
    System A where
  outbox
  workers := Function.update s.workers worker w

/-- The answer of a send an attempt is completed with: any, but in the last
`except` branch. -/
def admits (p : Pipeline A) (w : Worker) (result : Except (SendError A) A) :
    Prop :=
  w.failing = true →
    result = .error { code := p.faultCode, retryable := true }

/-- What a worker goes on with after a completion that raised: the last
`except` branch, where that was still ahead; else the exception leaves
`process_due_deliveries` and the batch with it. -/
def afterRaise (w : Worker) (result : Except (SendError A) A) : Worker :=
  match result with
  | .ok _ => if w.failing then {} else { w with failing := true }
  | .error _ => {}

/-- One event; a transaction that is rolled back is none. -/
inductive Step (p : Pipeline A) : System A → Event A → System A → Prop where
  | enqueue {s ids suppressed queuedAt outbox}
      (queued : enqueueAlertEvent p ids suppressed queuedAt s.outbox =
        some outbox) :
      Step p s (.enqueue ids suppressed queuedAt) { s with outbox }
  | operatorRetry {s deliveryID requestID now outbox}
      (retried : retryDelivery deliveryID requestID now s.outbox = .ok outbox) :
      Step p s (.operatorRetry deliveryID requestID now) { s with outbox }
  | claim {s worker lockedExpired lockedDue uuid now claims outbox}
      (ready : p.ready = true) (idle : (s.workers worker).queue = [])
      (claimed : claimDue p lockedExpired lockedDue uuid now s.outbox =
        some (claims, outbox)) :
      Step p s (.claim worker lockedExpired lockedDue uuid now)
        (s.setWorker worker { queue := claims } outbox)
  | complete {s worker result completedAt claim rest}
      (next : (s.workers worker).queue = claim :: rest)
      (admitted : admits p (s.workers worker) result) :
      Step p s (.complete worker result completedAt)
        (s.setWorker worker { queue := rest }
          (completeAttempt p claim result completedAt s.outbox))
  | completeRaises {s worker result completedAt committed claim rest}
      (next : (s.workers worker).queue = claim :: rest)
      (admitted : admits p (s.workers worker) result) :
      Step p s (.completeRaises worker result completedAt committed)
        (s.setWorker worker (afterRaise (s.workers worker) result)
          (if committed then
            completeAttempt p claim result completedAt s.outbox
          else s.outbox))
  | crash {s worker} :
      Step p s (.crash worker) (s.setWorker worker {} s.outbox)

end System

end NodeLink.Server.Notifications
