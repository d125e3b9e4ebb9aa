import NodeLink.Lib.Actions
import NodeLink.Lib.Trim
import NodeLink.Server.Anchor

/-!
# Publishing anchors

`core/anchor_publish.py` and the two callers of `create_anchor`: the request of
an operator, which commits an event with its anchor, and the scheduler's pass,
which makes an anchor when the chain has grown, publishes what is unpublished
and commits it all at the end. A backend keeps what it is given at once,
whether or not the pass commits. The ISO text of a time is a parameter, as is
SHA-256.
-/

namespace NodeLink.Server.AnchorPublishing

open Lib Server

/-- A row of `audit_anchors` with its key and its time. -/
structure AnchorRow where
  id : String
  createdAt : Int
  anchor : AuditAnchor
  deriving DecidableEq, Repr

inductive PublicationStatus where
  | pending
  | published
  deriving DecidableEq, Repr

/-- A row of `anchor_publications`, for the backend in use. -/
structure AnchorPublication where
  status : PublicationStatus := .pending
  uri : Option String := none
  receipt : Option StoredJson := none
  receiptSha256 : Option String := none
  attempts : Nat := 0
  lastError : Option String := none
  publishedAt : Option Int := none

structure PublishResult where
  uri : String
  receipt : StoredJson

/-! ## Documents and keys -/

section Documents

variable (sha256 : Bytes → Bytes) (isoformat : Int → String)

def anchorDocument (a : AnchorRow) : StoredJson :=
  .obj [("format", .str "nodelink-audit-anchor"), ("version", .num (.ofInt 1)),
    ("anchor_id", .str a.id), ("merkle_root", .str a.anchor.merkleRoot),
    ("event_count", .num (.ofInt a.anchor.eventCount)),
    ("last_event_id", .str a.anchor.lastEventID),
    ("created_at", .str (isoformat a.createdAt))]

/-- `canonical_anchor_document` -/
def canonicalAnchorDocument (a : AnchorRow) : Bytes :=
  utf8 (dumpsSorted (anchorDocument isoformat a))

/-- `receipt_digest` -/
def receiptDigest (receipt : StoredJson) : String :=
  hexdigest sha256 (utf8 (dumpsSorted receipt))

/-- `{n:012d}` -/
def padded (n : Nat) : List Char := List.leftpad 12 '0' (Nat.toDigits 10 n)

/-- `_object_key` -/
def objectKey (keyPrefix : String) (a : AnchorRow) : String :=
  String.ofList
    ((if keyPrefix = "" then []
      else keyPrefix.toList.rdropWhile (fun c => decide (c = '/')) ++ ['/']) ++
      "anchor-".toList ++ padded a.anchor.eventCount ++ ['-'] ++
      a.anchor.merkleRoot.toList ++ ".json".toList)

end Documents

/-! ## Backends -/

/-- What stands at a key of the destination. -/
abbrev Destination := String → Option Bytes

/-- A destination that takes a payload stores it at its key and nowhere
else. -/
structure Backend where
  name : String
  objectKey : AnchorRow → String
  publish : Int → Destination → String → Bytes →
    Except String (PublishResult × Destination)
  stores : ∀ now d key payload result d',
    publish now d key payload = .ok (result, d') →
      d' = Function.update d key (some payload)

section Backends

variable (sha256 : Bytes → Bytes)

def filesystemResult (directory key : String) (payload : Bytes) :
    PublishResult where
  uri := "file://" ++ directory ++ "/" ++ key
  receipt := .obj [("backend", .str "filesystem"),
    ("path", .str (directory ++ "/" ++ key)),
    ("sha256", .str (hexdigest sha256 payload)),
    ("bytes", .num (.ofInt payload.length))]

/-- `FilesystemBackend.publish` -/
def filesystemPublish (directory : String) (d : Destination) (key : String)
    (payload : Bytes) : Except String (PublishResult × Destination) :=
  match d key with
  | some existing =>
    if existing ≠ payload then
      .error ("existing anchor artifact differs at " ++ directory ++ "/" ++ key)
    else .ok (filesystemResult sha256 directory key payload, d)
  | none =>
    .ok (filesystemResult sha256 directory key payload,
      Function.update d key (some payload))

/-- `FilesystemBackend` -/
def filesystemBackend (directory : String) : Backend where
  name := "filesystem"
  objectKey := objectKey ""
  publish _ := filesystemPublish sha256 directory
  stores now d key payload result d' h := by
    unfold filesystemPublish at h
    split at h
    · next existing hexisting =>
        split at h
        · cases h
        · next hsame =>
            cases h
            rw [← not_not.mp hsame, ← hexisting, Function.update_eq_self]
    · cases h
      rfl

/-- `S3Backend`, with what the service answers to a payload. -/
structure S3Settings where
  bucket : String
  keyPrefix : String := ""
  lockMode : String := "COMPLIANCE"
  retainDays : Nat := 0
  isoformat : Int → String
  versionId : String → Bytes → Option String
  etag : String → Bytes → Option String

def S3Settings.result (s3 : S3Settings) (now : Int) (key : String)
    (payload : Bytes) : PublishResult where
  uri := "s3://" ++ s3.bucket ++ "/" ++ key
  receipt := .obj ([("backend", .str "s3"), ("bucket", .str s3.bucket),
      ("key", .str key), ("version_id", jsonString (s3.versionId key payload)),
      ("etag", .str (String.ofList (trim (fun c => decide (c = '"'))
        ((s3.etag key payload).getD "").toList))),
      ("sha256", .str (hexdigest sha256 payload))] ++
    if s3.retainDays = 0 then []
    else [("object_lock_mode", .str s3.lockMode),
      ("retain_until",
        .str (s3.isoformat (now + 86400000000 * s3.retainDays)))])

def s3Backend (s3 : S3Settings) : Backend where
  name := "s3"
  objectKey := objectKey s3.keyPrefix
  publish now d key payload :=
    .ok (s3.result sha256 now key payload, Function.update d key (some payload))
  stores now d key payload result d' h := by
    cases h
    rfl

end Backends

/-! ## Rows of a pass -/

/-- What a pass does to a publication: the row as it was read, none when it
was inserted, and the columns that are set. -/
structure PublicationWrite where
  read : Option AnchorPublication
  new : AnchorPublication

def sameReceipt (a b : Option StoredJson) : Bool :=
  decide (a.map dumpsSorted = b.map dumpsSorted)

def PublicationWrite.apply (w : PublicationWrite)
    (current : Option AnchorPublication) : AnchorPublication :=
  match w.read, current with
  | some r, some c =>
    { status := written (decide (w.new.status = r.status)) w.new.status c.status
      uri := written (decide (w.new.uri = r.uri)) w.new.uri c.uri
      receipt := written (sameReceipt w.new.receipt r.receipt) w.new.receipt
        c.receipt
      receiptSha256 := written
        (decide (w.new.receiptSha256 = r.receiptSha256)) w.new.receiptSha256
        c.receiptSha256
      attempts := written (decide (w.new.attempts = r.attempts)) w.new.attempts
        c.attempts
      lastError := written (decide (w.new.lastError = r.lastError))
        w.new.lastError c.lastError
      publishedAt := written (decide (w.new.publishedAt = r.publishedAt))
        w.new.publishedAt c.publishedAt }
  | _, _ => w.new

section Rows

variable (sha256 : Bytes → Bytes)

def recordFailure (row : AnchorPublication) (error : String) :
    AnchorPublication :=
  { row with
    attempts := row.attempts + 1
    status := .pending
    lastError := some (String.ofList (error.toList.take 500)) }

def recordSuccess (row : AnchorPublication) (result : PublishResult)
    (now : Int) : AnchorPublication where
  status := .published
  uri := some result.uri
  receipt := some result.receipt
  receiptSha256 := some (receiptDigest sha256 result.receipt)
  attempts := row.attempts + 1
  lastError := none
  publishedAt := some now

end Rows

/-! ## Transactions side by side -/

inductive Caller where
  | operator
  | scheduler
  deriving DecidableEq, Repr

/-- A transaction: the anchor it has flushed, what is left to publish once the
pass has selected it, and what it has done to publications. -/
structure Txn where
  caller : Caller
  anchor : Option AnchorRow := none
  queue : Option (List AnchorRow) := none
  rows : String → Option PublicationWrite := fun _ => none

/-- The committed rows, the destination, and the transactions under way. -/
structure State where
  events : List AuditEvent := []
  anchors : List AnchorRow := []
  publications : String → Option AnchorPublication := fun _ => none
  stored : Destination := fun _ => none
  txns : Open Txn := {}

/-- A call of the backend that fails for a reason of its own: what it says, and
whether the payload was stored all the same. -/
structure Outage where
  error : String
  stored : Bool
  deriving DecidableEq, Repr

inductive Action where
  /-- Other requests append events. -/
  | grow (events : List AuditEvent)
  /-- `create_audit_anchor`, up to its flush. -/
  | create (t : Nat) (id : String) (now : Int)
  /-- The scheduler's pass: `ensure_current_anchor`. -/
  | ensure (t : Nat) (id : String) (now : Int)
  /-- `_unpublished_anchors` -/
  | select (t : Nat)
  /-- One turn of the loop of `publish_pending`. -/
  | publish (t : Nat) (now : Int) (outage : Option Outage)
  /-- The commit, with the events of the request. -/
  | commit (t : Nat) (events : List AuditEvent)
  /-- A failure, or a crash, before the commit. -/
  | rollback (t : Nat)

section Steps

variable (sha256 : Bytes → Bytes) (isoformat : Int → String) (backend : Backend)

/-- The row `create_anchor` adds. -/
def newAnchor (s : State) (id : String) (now : Int) : Option AnchorRow :=
  match createAnchor sha256 s.events with
  | .ok (some anchor) => some ⟨id, now, anchor⟩
  | _ => none

/-- `covered >= total`, or no events. -/
def current (s : State) : Bool :=
  decide (s.events.length = 0) ||
    decide (s.events.length ≤
      (s.anchors.map (·.anchor.eventCount)).foldl max 0)

/-- The anchors a transaction sees. -/
def seen (s : State) (x : Txn) : List AnchorRow := x.anchor.toList ++ s.anchors

def isPublished (s : State) (a : AnchorRow) : Bool :=
  match s.publications a.id with
  | some p => decide (p.status = .published)
  | none => false

def countLe (a b : AnchorRow) : Prop := a.anchor.eventCount ≤ b.anchor.eventCount

instance : DecidableRel countLe := fun a b =>
  inferInstanceAs (Decidable (a.anchor.eventCount ≤ b.anchor.eventCount))

/-- `_unpublished_anchors` -/
def unpublishedAnchors (s : State) (x : Txn) : List AnchorRow :=
  ((seen s x).filter fun a => !isPublished s a).insertionSort countLe

/-- Another transaction has inserted a publication of the anchor. -/
def insertedByOther (s : State) (t : Nat) (id : String) : Bool :=
  s.txns.other t fun x =>
    match x.rows id with
    | some w => w.read.isNone
    | none => false

/-- `_publication_row` -/
def publicationRow (s : State) (x : Txn) (id : String) : PublicationWrite :=
  match x.rows id with
  | some w => w
  | none => ⟨s.publications id, (s.publications id).getD {}⟩

/-- No transaction and no row has the key. -/
def fresh (s : State) (id : String) : Bool :=
  s.anchors.all (fun a => decide (a.id ≠ id)) &&
    s.txns.entries.all fun e => decide (e.2.anchor.map (·.id) ≠ some id)

def enabled (s : State) : Action → Bool
  | .grow _ => true
  | .create t id _ => (s.txns.get t).isNone && fresh s id
  | .ensure t id _ => (s.txns.get t).isNone && fresh s id
  | .select t =>
    match s.txns.get t with
    | some x => decide (x.caller = .scheduler) && x.queue.isNone
    | none => false
  | .publish t _ _ =>
    match s.txns.get t with
    | some x =>
      match x.queue with
      | some (a :: _) => !insertedByOther s t a.id
      | _ => false
    | none => false
  | .commit t events =>
    match s.txns.get t with
    | some x =>
      match x.caller with
      | .operator => decide (events.length ≠ 0)
      | .scheduler => decide (x.queue.map (·.length) = some 0) &&
          decide (events.length = 0)
    | none => false
  | .rollback t => (s.txns.get t).isSome

/-- The turn of the loop for the first of the queue. -/
def publishStep (s : State) (t : Nat) (x : Txn) (a : AnchorRow)
    (rest : List AnchorRow) (now : Int) (outage : Option Outage) : State :=
  match outage with
  | some o =>
    { s with
      stored := if o.stored then
          Function.update s.stored (backend.objectKey a)
            (some (canonicalAnchorDocument isoformat a))
        else s.stored
      txns := s.txns.put t
        { x with
          queue := some rest
          rows := Function.update x.rows a.id
            (some { publicationRow s x a.id with
              new := recordFailure (publicationRow s x a.id).new o.error }) } }
  | none =>
    match backend.publish now s.stored (backend.objectKey a)
      (canonicalAnchorDocument isoformat a) with
    | .error error =>
      { s with
        txns := s.txns.put t
          { x with
            queue := some rest
            rows := Function.update x.rows a.id
              (some { publicationRow s x a.id with
                new := recordFailure (publicationRow s x a.id).new error }) } }
    | .ok (result, stored) =>
      { s with
        stored := stored
        txns := s.txns.put t
          { x with
            queue := some rest
            rows := Function.update x.rows a.id
              (some { publicationRow s x a.id with
                new := recordSuccess sha256 (publicationRow s x a.id).new result
                  now }) } }

def next (s : State) : Action → State
  | .grow events => { s with events := events ++ s.events }
  | .create t id now =>
    match newAnchor sha256 s id now with
    | none => s
    | some a =>
      { s with
        txns := s.txns.put t
          { caller := .operator
            anchor := some a } }
  | .ensure t id now =>
    if current s then { s with txns := s.txns.put t { caller := .scheduler } }
    else
      match newAnchor sha256 s id now with
      | none => s
      | some a =>
        { s with
          txns := s.txns.put t
            { caller := .scheduler
              anchor := some a } }
  | .select t =>
    match s.txns.get t with
    | none => s
    | some x =>
      { s with
        txns := s.txns.put t { x with queue := some (unpublishedAnchors s x) } }
  | .publish t now outage =>
    match s.txns.get t with
    | none => s
    | some x =>
      match x.queue with
      | some (a :: rest) =>
        publishStep sha256 isoformat backend s t x a rest now outage
      | _ => s
  | .commit t events =>
    match s.txns.get t with
    | none => s
    | some x =>
      { s with
        events := events ++ s.events
        anchors := seen s x
        publications := fun id =>
          match x.rows id with
          | some w => some (w.apply (s.publications id))
          | none => s.publications id
        txns := s.txns.close t }
  | .rollback t => { s with txns := s.txns.close t }

/-- Anchors, and their publication to one backend. -/
def system : System State Action :=
  ⟨enabled, next sha256 isoformat backend⟩

end Steps

end NodeLink.Server.AnchorPublishing
