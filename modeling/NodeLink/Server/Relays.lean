import NodeLink.Lib.Checks
import NodeLink.Lib.JsonText
import Mathlib.Logic.Relation

/-!
# Relay forwards

`core/relays.py`: how a request that a relay carried is authenticated and its
replay receipt recorded, and `core/retention.py`: how old receipts are pruned.
Times are microseconds since the epoch; header texts are latin-1, whose only
decimal digits are the ASCII ones.
-/

namespace NodeLink.Server

open Lib

/-! ## Settings and rows -/

/-- The relay settings, within the bounds they are validated against. -/
structure RelaySettings where
  relayRoutingEnabled : Bool := false
  relayClockSkewSeconds : Int := 120
  relayMaxForwardAgeSeconds : Int := 300
  relayMaxForwardBodyBytes : Nat := 1048576
  relayReceiptRetentionDays : Int := 7
  skewBounds : 5 ≤ relayClockSkewSeconds ∧ relayClockSkewSeconds ≤ 600 := by
    decide
  bodyBounds : 4096 ≤ relayMaxForwardBodyBytes ∧
    relayMaxForwardBodyBytes ≤ 8388608 := by decide
  ageBounds : 10 ≤ relayMaxForwardAgeSeconds ∧
    relayMaxForwardAgeSeconds ≤ 3600 := by decide
  retentionBounds : 1 ≤ relayReceiptRetentionDays ∧
    relayReceiptRetentionDays ≤ 365 := by decide

inductive RelayStatus where
  | pending
  | active
  | draining
  | revoked
  deriving DecidableEq, Repr

inductive RegionStatus where
  | active
  | draining
  | disabled
  deriving DecidableEq, Repr

inductive RelayKeyStatus where
  | active
  | retired
  | revoked
  deriving DecidableEq, Repr

structure Relay where
  id : String
  regionId : String
  status : RelayStatus
  lastForwardAt : Option Int := none
  deriving DecidableEq, Repr

structure RelayRegion where
  id : String
  code : String
  status : RegionStatus
  deriving DecidableEq, Repr

structure RelayKey where
  keyId : String
  relayId : String
  status : RelayKeyStatus
  notAfter : Int
  publicKeyPem : String
  deriving DecidableEq, Repr

structure RelayForwardReceipt where
  id : String
  relayId : String
  keyId : String
  nonce : String
  method : String
  path : String
  queuedAt : Int
  receivedAt : Int
  deriving DecidableEq, Repr

structure RelayTables where
  relays : List Relay := []
  regions : List RelayRegion := []
  keys : List RelayKey := []
  receipts : List RelayForwardReceipt := []
  deriving DecidableEq, Repr

/-- `RelayRefusal` -/
structure RelayRefusal where
  code : String
  httpStatus : Nat := 403
  deriving DecidableEq, Repr

structure RelayContext where
  relayId : String
  regionId : String
  regionCode : String
  keyId : String
  receiptId : String
  queuedAt : Int
  deriving DecidableEq, Repr

/-! ## Headers and routes -/

def headerRelayId : String := "x-nodelink-relay-id"

def headerKeyId : String := "x-nodelink-relay-key-id"

def headerTimestamp : String := "x-nodelink-relay-timestamp"

def headerQueuedAt : String := "x-nodelink-relay-queued-at"

def headerNonce : String := "x-nodelink-relay-nonce"

def headerSignature : String := "x-nodelink-relay-signature"

def requiredHeaders : List String :=
  [headerRelayId, headerKeyId, headerTimestamp, headerQueuedAt, headerNonce,
    headerSignature]

/-- A request as the ingress hands it over. -/
structure ForwardRequest where
  method : String
  path : String
  headers : List (String × String)
  body : Bytes
  deriving DecidableEq, Repr

/-- `headers.get(name, "")` -/
def ForwardRequest.header (request : ForwardRequest) (name : String) : String :=
  (request.headers.lookup name).getD ""

/-- `^[0-9a-f-]{36}$` -/
def uuidRe (s : String) : Bool :=
  s.length == 36 &&
    s.toList.all fun c => c.isDigit || ('a' ≤ c && c ≤ 'f') || c == '-'

/-- `^[A-Za-z0-9._-]{1,64}$` -/
def keyIdRe (s : String) : Bool :=
  1 ≤ s.length && s.length ≤ 64 &&
    s.toList.all fun c => c.isAlphanum || "._-".toList.contains c

/-- `^[A-Za-z0-9_-]{22,64}$` -/
def nonceRe (s : String) : Bool :=
  22 ≤ s.length && s.length ≤ 64 &&
    s.toList.all fun c => c.isAlphanum || c == '_' || c == '-'

/-- `_parse_int` -/
def parseInt (value : String) : Option Int :=
  if 1 ≤ value.length ∧ value.length ≤ 12 ∧ value.toList.all Char.isDigit = true
  then some (Nat.ofDigitChars 10 value.toList 0)
  else none

/-- What may stand at a `$`: the end, or one newline before it. -/
def atEnd (rest : List Char) : Bool := rest == [] || rest == ['\n']

/-- `^/api/v1/commands/[^/]{1,64}/result$` -/
def commandResultRe (path : List Char) : Bool :=
  match "/api/v1/commands/".toList.isPrefixOf path with
  | false => false
  | true =>
    let rest := path.drop "/api/v1/commands/".length
    let id := rest.takeWhile (· ≠ '/')
    let tail := rest.dropWhile (· ≠ '/')
    1 ≤ id.length && id.length ≤ 64 && "/result".toList.isPrefixOf tail &&
      atEnd (tail.drop "/result".length)

/-- A pattern that is a fixed path. -/
def fixedRe (route : String) (path : List Char) : Bool :=
  route.toList.isPrefixOf path && atEnd (path.drop route.length)

/-- `is_relayable`, over `_RELAYABLE_ROUTES`. -/
def isRelayable (method path : String) : Bool :=
  method == "POST" &&
    (fixedRe "/api/v1/heartbeat" path.toList || commandResultRe path.toList ||
      fixedRe "/api/v1/agents/me/inventory" path.toList ||
      fixedRe "/api/v1/agents/me/monitoring/results" path.toList ||
      fixedRe "/api/v1/agents/credentials/renew" path.toList)

/-! ## What a relay signs -/

def forwardContext : String := "nodelink-relay-forward-v1"

/-- The arguments of `canonical_forward_bytes`. -/
structure SignedForward where
  relayId : String
  keyId : String
  method : String
  path : String
  body : Bytes
  timestamp : Int
  queuedAt : Int
  nonce : String
  deriving DecidableEq, Repr

/- The language's `str.upper`, its SHA-256 and base64, and the library that
loads a key and verifies a signature with it. -/
section Forward

variable (upper : String → String) (sha256 : Bytes → String)
variable (b64decode : String → Option Bytes)
variable (verifySignature : String → Bytes → Bytes → Bool)

def SignedForward.fields (f : SignedForward) : List (List Char) :=
  [forwardContext.toList, f.relayId.toList, f.keyId.toList,
    (upper f.method).toList, f.path.toList, (sha256 f.body).toList,
    intDigits f.timestamp, intDigits f.queuedAt, f.nonce.toList]

/-- `canonical_forward_bytes` -/
def canonicalForwardBytes (f : SignedForward) : Except String Bytes :=
  if (f.fields upper sha256).any (·.contains '\n') = true then
    .error "forward fields must not contain newlines"
  else .ok (utf8 (['\n'].intercalate (f.fields upper sha256)))

/-- `int(now.timestamp())` -/
def epochSeconds (now : Int) : Int := now.tdiv 1000000

/-- The signature check of `verify_forward`. -/
def signatureValid (key : RelayKey) (signatureText : String)
    (f : SignedForward) : Bool :=
  match b64decode signatureText, canonicalForwardBytes upper sha256 f with
  | some signature, .ok message =>
    verifySignature key.publicKeyPem signature message
  | _, _ => false

/-- The checks of `verify_forward` up to the receipt: the relay, its region
and what it signed. -/
def checkForward (s : RelaySettings) (tables : RelayTables) (now : Int)
    (request : ForwardRequest) :
    Except RelayRefusal (Relay × RelayRegion × SignedForward) := do
  require (s.relayRoutingEnabled = true) ⟨"relay_routing_disabled", 403⟩
  require (∀ name ∈ requiredHeaders, request.header name ≠ "")
    ⟨"relay_headers_incomplete", 400⟩
  let relayId := request.header headerRelayId
  let keyId := request.header headerKeyId
  let nonce := request.header headerNonce
  require (uuidRe relayId = true ∧ keyIdRe keyId = true)
    ⟨"relay_headers_invalid", 400⟩
  require (nonceRe nonce = true) ⟨"relay_headers_invalid", 400⟩
  let timestamp ← (parseInt (request.header headerTimestamp)).elim
    (.error ⟨"relay_headers_invalid", 400⟩) .ok
  let queuedAt ← (parseInt (request.header headerQueuedAt)).elim
    (.error ⟨"relay_headers_invalid", 400⟩) .ok
  let relay ← (tables.relays.find? (·.id = relayId)).elim
    (.error ⟨"relay_unknown", 403⟩) .ok
  require (isRelayable request.method request.path = true)
    ⟨"relay_route_unsupported", 403⟩
  require (relay.status = .active ∨ relay.status = .draining)
    ⟨"relay_not_active", 403⟩
  let region ← (tables.regions.find? (·.id = relay.regionId)).elim
    (.error ⟨"relay_region_disabled", 403⟩) .ok
  require (region.status ≠ .disabled) ⟨"relay_region_disabled", 403⟩
  require (request.body.length ≤ s.relayMaxForwardBodyBytes)
    ⟨"relay_body_too_large", 413⟩
  let key ← (tables.keys.find? fun key =>
      key.keyId = keyId ∧ key.relayId = relay.id).elim
    (.error ⟨"relay_key_unknown", 403⟩) .ok
  require (key.status = .active) ⟨"relay_key_inactive", 403⟩
  require (now < key.notAfter) ⟨"relay_key_expired", 403⟩
  let forward : SignedForward := ⟨relay.id, keyId, request.method, request.path,
    request.body, timestamp, queuedAt, nonce⟩
  require (signatureValid upper sha256 b64decode verifySignature key
      (request.header headerSignature) forward = true)
    ⟨"relay_signature_invalid", 403⟩
  -- freshness is judged after the signature: the times are the relay's claims
  require ((epochSeconds now - timestamp).natAbs ≤ s.relayClockSkewSeconds)
    ⟨"relay_clock_skew", 403⟩
  require (queuedAt ≤ timestamp + s.relayClockSkewSeconds)
    ⟨"relay_clock_skew", 403⟩
  require (epochSeconds now - queuedAt ≤ s.relayMaxForwardAgeSeconds)
    ⟨"relay_forward_too_old", 403⟩
  .ok (relay, region, forward)

def RelayTables.touch (tables : RelayTables) (relayId : String) (now : Int) :
    RelayTables :=
  { tables with relays := tables.relays.map fun relay =>
      if relay.id = relayId then { relay with lastForwardAt := some now }
      else relay }

/-- `verify_forward`, with the id its receipt gets: the context and the tables
after its commit, or a refusal, which leaves them as they were. -/
def verifyForward (s : RelaySettings) (tables : RelayTables) (now : Int)
    (receiptId : String) (request : ForwardRequest) :
    Except RelayRefusal (RelayContext × RelayTables) := do
  let (relay, region, forward) ←
    checkForward upper sha256 b64decode verifySignature s tables now request
  -- the unique index on (relay_id, nonce)
  require (∀ receipt ∈ tables.receipts,
      ¬ (receipt.relayId = relay.id ∧ receipt.nonce = forward.nonce))
    ⟨"relay_replay", 409⟩
  let receipt : RelayForwardReceipt := {
    id := receiptId
    relayId := relay.id
    keyId := forward.keyId
    nonce := forward.nonce
    method := upper request.method
    path := String.ofList (request.path.toList.take 256)
    queuedAt := 1000000 * forward.queuedAt
    receivedAt := now }
  .ok (⟨relay.id, region.id, region.code, forward.keyId, receiptId,
      1000000 * forward.queuedAt⟩,
    { tables.touch relay.id now with receipts := receipt :: tables.receipts })

end Forward

/-! ## Retention -/

def receiptDay : Int := 86400 * 1000000

/-- The part of `prune_expired` that deletes receipts. -/
def pruneReceipts (s : RelaySettings) (tables : RelayTables) (now : Int) :
    RelayTables :=
  let cutoff := now - max 1 s.relayReceiptRetentionDays * receiptDay
  { tables with receipts :=
      tables.receipts.filter fun receipt => decide (cutoff ≤ receipt.receivedAt) }

/-! ## Runs -/

section Run

variable (upper : String → String) (sha256 : Bytes → String)
variable (b64decode : String → Option Bytes)
variable (verifySignature : String → Bytes → Bytes → Bool)

/-- The tables, a clock that never goes backwards, and every forward that was
accepted, the last one first. -/
structure RelayWorld where
  tables : RelayTables
  clock : Int
  accepted : List SignedForward := []

/-- Requests and retries with any headers and bodies, pruning passes, and
operators who change relays, regions and keys as they like. -/
inductive RelayStep : RelayWorld → RelayWorld → Prop where
  | tick {w clock} (h : w.clock ≤ clock) : RelayStep w { w with clock := clock }
  | administer {w relays regions keys} :
      RelayStep w { w with tables :=
        { w.tables with relays := relays, regions := regions, keys := keys } }
  | forward {w s receiptId request context tables relay region f}
      (hcheck : checkForward upper sha256 b64decode verifySignature s w.tables
        w.clock request = .ok (relay, region, f))
      (h : verifyForward upper sha256 b64decode verifySignature s w.tables
        w.clock receiptId request = .ok (context, tables)) :
      RelayStep w { w with tables := tables, accepted := f :: w.accepted }
  | refuse {w s receiptId request refusal}
      (h : verifyForward upper sha256 b64decode verifySignature s w.tables
        w.clock receiptId request = .error refusal) : RelayStep w w
  | prune {w s} :
      RelayStep w { w with tables := pruneReceipts s w.tables w.clock }

def RelayRun : RelayWorld → RelayWorld → Prop :=
  Relation.ReflTransGen
    (RelayStep upper sha256 b64decode verifySignature)

end Run

end NodeLink.Server
