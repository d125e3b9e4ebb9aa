import NodeLink.Lib.Actions
import NodeLink.Lib.Trim

/-!
# Emailed one-time codes

`core/mfa_email.py` and the handlers of `api/mfa.py` around it, for one
operator. `issue_code` supersedes the live codes with one update and inserts
another. `consume_code` reads the live codes, charges an attempt on its copy of
one, compares, and claims a code that matches with a conditional update; what it
changed on its copies is flushed after that, by key. A row that was updated is
held until the transaction ends.

What Unicode and bcrypt say about a text comes in as `Texts`.
-/

namespace NodeLink.Server.EmailCodes

open Lib

structure Texts where
  /-- `str.isdigit` -/
  isDigit : Char → Bool
  /-- `str.lower` -/
  lower : String → String
  /-- `bcrypt.hashpw(code, salt)` -/
  hashpw : String → String → String
  /-- `bcrypt.checkpw`; `False` where it raises. -/
  checkpw : String → String → Bool

structure Config where
  texts : Texts
  codeTtlSeconds : Int := 600
  codeMaxAttempts : Int := 5

/-- `MfaEmailCodePurpose` -/
inductive Purpose where
  | enrollment
  | login
  deriving DecidableEq, Repr

/-- `MfaEmailCode`; an instant is a number of microseconds. -/
structure EmailCode where
  id : Nat
  purpose : Purpose
  codeHash : String
  address : String
  attempts : Nat := 0
  createdAt : Int
  expiresAt : Int
  consumedAt : Option Int := none
  supersededAt : Option Int := none
  deriving DecidableEq, Repr

/-- Neither consumed nor superseded. -/
def EmailCode.live (c : EmailCode) : Bool :=
  c.consumedAt.isNone && c.supersededAt.isNone

/-- `ConsumeResult.reason` -/
inductive Reason where
  | accepted
  | invalidCode
  | attemptsExhausted
  | addressChanged
  | alreadyConsumed
  | replayed
  | expired
  | noLiveCode
  deriving DecidableEq, Repr

def Reason.text : Reason → String
  | .accepted => "accepted"
  | .invalidCode => "invalid_code"
  | .attemptsExhausted => "attempts_exhausted"
  | .addressChanged => "address_changed"
  | .alreadyConsumed => "already_consumed"
  | .replayed => "replayed"
  | .expired => "expired"
  | .noLiveCode => "no_live_code"

/-- `ConsumeResult.ok` -/
def Reason.ok (r : Reason) : Bool := decide (r = .accepted)

/-- `normalize_address` -/
def normalizeAddress (t : Texts) (value : String) : String := t.lower (strip value)

/-- `normalize_code` -/
def normalizeCode (t : Texts) (value : String) : String :=
  String.ofList (value.toList.filter t.isDigit)

variable (cfg : Config)

/-! ## Comparing -/

/-- What `consume_code` changed on its copy of the code it compared. -/
structure Charge where
  id : Nat
  attempts : Nat
  supersede : Bool
  deriving DecidableEq, Repr

inductive Judgement where
  /-- No code to compare with. -/
  | unmatched
  | refused (charge : Charge) (reason : Reason)
  | matched (charge : Charge)
  deriving DecidableEq, Repr

def Judgement.charge : Judgement → Option Charge
  | .unmatched => none
  | .refused charge _ => some charge
  | .matched charge => some charge

/-- The presented value, normalized, is the code of the row. -/
def matchesCode (normalized : String) (row : EmailCode) : Bool :=
  decide (normalized ≠ "") && cfg.texts.checkpw normalized row.codeHash

/-- One attempt on a code that has not expired. -/
def attempt (normalized email : String) (row : EmailCode) : Judgement :=
  let attempts := row.attempts + 1
  let exhausted := decide (cfg.codeMaxAttempts ≤ attempts)
  if !matchesCode cfg normalized row then
    .refused ⟨row.id, attempts, exhausted⟩
      (if exhausted then .attemptsExhausted else .invalidCode)
  else if normalizeAddress cfg.texts row.address ≠
      normalizeAddress cfg.texts email then
    .refused ⟨row.id, attempts, true⟩ .addressChanged
  else .matched ⟨row.id, attempts, false⟩

/-- The loop of `consume_code` over the live codes: the expired ones it passes,
and what becomes of the first that is not. -/
def judge (now : Int) (normalized email : String) :
    List EmailCode → List Nat × Judgement
  | [] => ([], .unmatched)
  | row :: rows =>
    if row.expiresAt ≤ now then
      let (lapsed, judgement) := judge now normalized email rows
      (row.id :: lapsed, judgement)
    else ([], attempt cfg normalized email row)

/-- The codes of the replay scan that are compared: up to the first match. -/
def scanned (normalized : String) : List EmailCode → List EmailCode
  | [] => []
  | row :: rows =>
    if cfg.texts.checkpw normalized row.codeHash then [row]
    else row :: scanned normalized rows

def replayReason (normalized : String) (rows : List EmailCode) : Reason :=
  match rows.find? fun row => cfg.texts.checkpw normalized row.codeHash with
  | none => .noLiveCode
  | some row => if row.consumedAt.isSome then .replayed else .expired

/-! ## Calls side by side -/

inductive Request where
  /-- `issue_code`, with the send that follows it -/
  | issue (purpose : Purpose)
  | consume (presented : String) (purpose : Purpose)
  /-- `invalidate_codes`, for `remove_factor` -/
  | remove
  deriving DecidableEq, Repr

inductive Stage where
  | begun
  /-- The live codes as the update that supersedes them sees them. -/
  | superseding (ids : List Nat)
  | superseded
  | issued
  /-- The code could not be sent. -/
  | unsent
  | loaded (rows : List EmailCode)
  | unmatched
  | matched (id : Nat)
  | answered (reason : Reason)
  | flushed (reason : Reason)
  | raised
  deriving DecidableEq, Repr

/-- A call under way, with what it changed. -/
structure Txn where
  request : Request
  /-- The operator's address as it was loaded. -/
  email : String
  stage : Stage := .begun
  now : Int := 0
  superseded : List Nat := []
  inserted : Option EmailCode := none
  lapsed : List Nat := []
  charge : Option Charge := none
  consumed : Option Nat := none
  deriving DecidableEq, Repr

/-- The committed codes, the calls under way, the numbers given out, the codes
that were compared while they were live, and the codes that were accepted, with
whether they had been superseded; newest first. -/
structure State where
  clock : Int := 0
  codes : List EmailCode := []
  txns : Open Txn := {}
  ids : Nat := 0
  compared : List Nat := []
  accepted : List (Nat × Bool) := []
  deriving DecidableEq, Repr

variable (s : State)

/-- `rows` is what the query finds, newest first. -/
def answersQuery (rows found : List EmailCode) : Bool :=
  rows.isPerm found &&
    decide (rows.Pairwise fun a b => b.createdAt ≤ a.createdAt)

def liveFor (purpose : Purpose) (c : EmailCode) : Bool :=
  decide (c.purpose = purpose) && c.live

/-- The live codes of an update; after a failed send, those of the purpose. -/
def Txn.toSupersede (x : Txn) (c : EmailCode) : Bool :=
  match x.stage, x.request with
  | .unsent, .issue purpose => liveFor purpose c
  | _, _ => c.live

def scan (x : Txn) : Txn :=
  { x with
    now := s.clock
    stage := .superseding ((s.codes.filter x.toSupersede).map (·.id)) }

/-- Of these codes, those that are still live. -/
def stillLive (ids : List Nat) : List Nat :=
  (s.codes.filter fun c => decide (c.id ∈ ids) && c.live).map (·.id)

def supersede (x : Txn) : Txn :=
  match x.stage with
  | .superseding ids =>
    { x with
      superseded := stillLive s ids ++ x.superseded
      stage := .superseded }
  | _ => x

/-- The row of a new code; it is numbered when it is committed. -/
def newCode (purpose : Purpose) (email code salt : String) : EmailCode where
  id := 0
  purpose := purpose
  codeHash := cfg.texts.hashpw code salt
  address := normalizeAddress cfg.texts email
  createdAt := s.clock
  expiresAt := s.clock + 1000000 * cfg.codeTtlSeconds

def insertCode (code salt : String) (x : Txn) : Txn :=
  match x.request with
  | .issue purpose =>
    { x with
      inserted := some (newCode cfg s purpose x.email code salt)
      stage := .issued }
  | _ => x

/-- The send failed: the code is superseded with the others. -/
def fail (x : Txn) : Txn :=
  { x with
    inserted := x.inserted.map fun c => { c with supersededAt := some s.clock }
    stage := .unsent }

def load (rows : List EmailCode) (x : Txn) : Txn :=
  { x with now := s.clock, stage := .loaded rows }

def compareCode (x : Txn) : Txn :=
  match x.stage, x.request with
  | .loaded rows, .consume presented _ =>
    let (lapsed, judgement) :=
      judge cfg x.now (normalizeCode cfg.texts presented) x.email rows
    { x with
      lapsed
      charge := judgement.charge
      stage := match judgement with
        | .unmatched => .unmatched
        | .refused _ reason => .answered reason
        | .matched charge => .matched charge.id }
  | _, _ => x

/-- The code a call is about to compare. -/
def Txn.compares (x : Txn) : Option Nat :=
  match x.stage with
  | .loaded _ => ((compareCode cfg x).charge).map (·.id)
  | _ => none

/-- The row of the code, where it is not consumed. -/
def State.unconsumed (id : Nat) : Option EmailCode :=
  s.codes.find? fun c => decide (c.id = id) && c.consumedAt.isNone

def claim (x : Txn) : Txn :=
  match x.stage with
  | .matched id =>
    match s.unconsumed id with
    | none => { x with stage := .answered .alreadyConsumed }
    | some _ => { x with consumed := some id, stage := .answered .accepted }
  | _ => x

/-- The codes of a replay scan. -/
def recent (x : Txn) (c : EmailCode) : Bool :=
  match x.request with
  | .consume _ purpose => decide (c.purpose = purpose) &&
      decide (x.now - 1000000 * cfg.codeTtlSeconds * 3 ≤ c.createdAt)
  | _ => false

/-- What a replay scan compares, of its rows newest first. -/
def Txn.replays (x : Txn) (rows : List EmailCode) : List EmailCode :=
  match x.request with
  | .consume presented _ =>
    let normalized := normalizeCode cfg.texts presented
    if normalized = "" then [] else scanned cfg normalized (rows.take 10)
  | _ => []

def replay (rows : List EmailCode) (x : Txn) : Txn :=
  match x.request with
  | .consume presented _ =>
    let normalized := normalizeCode cfg.texts presented
    { x with
      stage := .answered (if normalized = "" then .noLiveCode
        else replayReason cfg normalized (rows.take 10)) }
  | _ => x

/-- The rows whose copies were changed. -/
def Txn.dirty (x : Txn) : List Nat :=
  x.lapsed ++ x.charge.toList.map (·.id)

/-- The rows that are held. -/
def Txn.locks (x : Txn) : List Nat :=
  x.superseded ++ x.consumed.toList ++
    (match x.stage with
      | .flushed _ => x.dirty
      | _ => [])

/-- An update by key of a row that is gone raises. -/
def flush (x : Txn) : Txn :=
  match x.stage with
  | .answered reason =>
    { x with
      stage := if x.dirty.all fun id => s.codes.any fun c => decide (c.id = id)
        then .flushed reason else .raised }
  | _ => x

/-- What the call has charged on a row. -/
def Txn.chargeOn (x : Txn) (id : Nat) : Option Charge :=
  x.charge.filter fun charge => decide (charge.id = id)

/-- The columns that are written. -/
def Txn.write (x : Txn) (c : EmailCode) : EmailCode :=
  { c with
    attempts := ((x.chargeOn c.id).map (·.attempts)).getD c.attempts
    consumedAt := if x.consumed = some c.id then some x.now else c.consumedAt
    supersededAt :=
      if decide (c.id ∈ x.superseded) || decide (c.id ∈ x.lapsed) ||
        (x.chargeOn c.id).any (·.supersede) then some x.now
      else c.supersededAt }

inductive Action where
  | tick (microseconds : Nat)
  | arrive (t : Nat) (email : String) (request : Request)
  | scan (t : Nat)
  | supersede (t : Nat)
  | insert (t : Nat) (code salt : String)
  | fail (t : Nat)
  | load (t : Nat) (rows : List EmailCode)
  | compare (t : Nat)
  | claim (t : Nat)
  | replay (t : Nat) (rows : List EmailCode)
  | flush (t : Nat)
  | commit (t : Nat)
  | rollback (t : Nat)
  /-- `purge_expired_codes` -/
  | purge (ids : List Nat)
  deriving DecidableEq, Repr

/-- Another call holds one of these rows. -/
def State.held (t : Nat) (ids : List Nat) : Bool :=
  s.txns.other t fun y => y.locks.any fun id => decide (id ∈ ids)

def State.stands (t : Nat) (p : Txn → Bool) : Bool :=
  match s.txns.get t with
  | none => false
  | some x => p x

def Txn.mayScan (x : Txn) : Bool :=
  match x.stage, x.request with
  | .begun, .consume _ _ => false
  | .begun, _ => true
  | .unsent, _ => true
  | _, _ => false

def Txn.maySupersede (t : Nat) (x : Txn) : Bool :=
  match x.stage with
  | .superseding ids => !s.held t ids
  | _ => false

def Txn.mayInsert (x : Txn) : Bool :=
  match x.stage, x.request with
  | .superseded, .issue _ => x.inserted.isNone
  | _, _ => false

def Txn.mayLoad (rows : List EmailCode) (x : Txn) : Bool :=
  match x.stage, x.request with
  | .begun, .consume _ purpose =>
    answersQuery rows (s.codes.filter (liveFor purpose))
  | _, _ => false

def Txn.mayCompare (x : Txn) : Bool :=
  match x.stage with
  | .loaded _ => true
  | _ => false

def Txn.mayClaim (t : Nat) (x : Txn) : Bool :=
  match x.stage with
  | .matched id => !s.held t [id]
  | _ => false

def Txn.mayReplay (rows : List EmailCode) (x : Txn) : Bool :=
  decide (x.stage = .unmatched) &&
    answersQuery rows (s.codes.filter (recent cfg x))

def Txn.mayFlush (t : Nat) (x : Txn) : Bool :=
  match x.stage with
  | .answered _ => !s.held t x.dirty
  | _ => false

def Txn.mayCommit (x : Txn) : Bool :=
  match x.stage, x.request with
  | .issued, _ => true
  | .superseded, .remove => true
  | .superseded, .issue _ => x.inserted.isSome
  | .flushed _, _ => true
  | _, _ => false

def enabled : Action → Bool
  | .tick _ => true
  | .arrive t _ _ => (s.txns.get t).isNone
  | .scan t => s.stands t Txn.mayScan
  | .supersede t => s.stands t (Txn.maySupersede s t)
  | .insert t _ _ => s.stands t Txn.mayInsert
  | .fail t => s.stands t fun x => decide (x.stage = .issued)
  | .load t rows => s.stands t (Txn.mayLoad s rows)
  | .compare t => s.stands t Txn.mayCompare
  | .claim t => s.stands t (Txn.mayClaim s t)
  | .replay t rows => s.stands t (Txn.mayReplay cfg s rows)
  | .flush t => s.stands t (Txn.mayFlush s t)
  | .commit t => s.stands t Txn.mayCommit
  | .rollback t => (s.txns.get t).isSome
  | .purge ids =>
    (!s.txns.entries.any fun e => e.2.locks.any fun id => decide (id ∈ ids)) &&
      s.codes.all fun c => decide (c.id ∈ ids →
        c.createdAt < s.clock - 1000000 * cfg.codeTtlSeconds * 3)

/-- Call `t` goes on. -/
def State.go (t : Nat) (step : Txn → Txn) : State :=
  match s.txns.get t with
  | none => s
  | some x => { s with txns := s.txns.put t (step x) }

/-- A row of the number is live. -/
def State.isLive (id : Nat) : Bool :=
  s.codes.any fun c => decide (c.id = id) && c.live

/-- What call `t` compares now. -/
def State.comparing (t : Nat) : List Nat :=
  match s.txns.get t with
  | none => []
  | some x => (x.compares cfg).toList.filter s.isLive

def State.replaying (t : Nat) (rows : List EmailCode) : List Nat :=
  match s.txns.get t with
  | none => []
  | some x => ((x.replays cfg rows).map (·.id)).filter s.isLive

/-- The code call `t` claims now, and whether it had been superseded. -/
def State.claiming (t : Nat) : List (Nat × Bool) :=
  match s.txns.get t with
  | none => []
  | some x =>
    match x.stage with
    | .matched id =>
      (s.unconsumed id).toList.map fun c => (id, c.supersededAt.isSome)
    | _ => []

def next : Action → State
  | .tick microseconds => { s with clock := s.clock + microseconds }
  | .arrive t email request =>
    { s with txns := s.txns.put t { request, email } }
  | .scan t => s.go t (scan s)
  | .supersede t => s.go t (supersede s)
  | .insert t code salt => s.go t (insertCode cfg s code salt)
  | .fail t => s.go t (fail s)
  | .load t rows => s.go t (load s rows)
  | .compare t =>
    { s.go t (compareCode cfg) with compared := s.comparing cfg t ++ s.compared }
  | .claim t =>
    { s.go t (claim s) with accepted := s.claiming t ++ s.accepted }
  | .replay t rows =>
    { s.go t (replay cfg rows) with
      compared := s.replaying cfg t rows ++ s.compared }
  | .flush t => s.go t (flush s)
  | .commit t =>
    match s.txns.get t with
    | none => s
    | some x =>
      { s with
        codes := s.codes.map x.write ++
          x.inserted.toList.map fun c => { c with id := s.ids }
        ids := s.ids + 1
        txns := s.txns.close t }
  | .rollback t => { s with txns := s.txns.close t }
  | .purge ids =>
    { s with codes := s.codes.filter fun c => decide (c.id ∉ ids) }

/-- The codes of one operator. -/
def system : System State Action := ⟨enabled cfg, next cfg⟩

end NodeLink.Server.EmailCodes
