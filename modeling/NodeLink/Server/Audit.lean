import NodeLink.Lib.HashChain
import NodeLink.Lib.JsonUnique
import NodeLink.Lib.Checks

/-!
# The audit log

`core/audit.py` and the boundary it calls, `sanitize_audit_detail` of
`core/redaction.py`. The table of audit schemas and the scrubbing of strings
are parameters, as are SHA-256 and the ISO text of a time.

The second half is the concurrent system: transactions that append events,
each append taking the transaction's advisory lock, reading the tail and
flushing a row, one step each.
-/

namespace NodeLink.Server

open Lib

abbrev StoredJson := Json String Number

/-! ## Audit details -/

/-- A value as a producer hands it over. -/
inductive AuditValue where
  | none
  | bool (b : Bool)
  | int (i : Int)
  | float (n : Number)
  | nonFinite
  | str (s : String)
  | bytes
  | mapping
  | list (items : List AuditValue)
  | other

inductive AuditDetailError where
  | unregisteredAction (action : String)
  | schemaMismatch (missing unexpected : List String)
  | digestNotString (field : String)
  | tooLarge (field : String)
  | notFinite (field : String)
  | bytes (field : String)
  | nestedObject (field : String)
  | tooManyItems (field : String)
  | nestedItem (field : String)
  | unsupportedType (field : String)
  deriving DecidableEq

structure AuditDetailSchema where
  fields : List String
  digestFields : List String

def maxAuditStringBytes : Nat := 4096

def maxAuditListItems : Nat := 1000

/-- `value.encode("utf-8")` -/
def encoded (value : String) : Bytes := utf8 value.toList

section Redaction

variable (schemas : String → Option AuditDetailSchema)
  (redactScalarStr : String → String) (sha256Hex : Bytes → String)

/-- `_normalize_audit_scalar`, but for lists. -/
def normalizeScalar (field : String) :
    AuditValue → Except AuditDetailError StoredJson
  | .none => .ok .null
  | .bool b => .ok (.bool b)
  | .int i => .ok (.num (.ofInt i))
  | .float n => .ok (.num n)
  | .nonFinite => .error (.notFinite field)
  | .str s =>
    if maxAuditStringBytes < (encoded s).length then .error (.tooLarge field)
    else .ok (.str (redactScalarStr s))
  | .bytes => .error (.bytes field)
  | .mapping => .error (.nestedObject field)
  | .list _ => .error (.nestedItem field)
  | .other => .error (.unsupportedType field)

/-- One item of a list: a container there is its own error. -/
def normalizeItem (field : String) :
    AuditValue → Except AuditDetailError StoredJson
  | .bytes | .mapping | .list _ => .error (.nestedItem field)
  | value => normalizeScalar redactScalarStr field value

def normalizeAuditScalar (field : String) :
    AuditValue → Except AuditDetailError StoredJson
  | .list items =>
    if maxAuditListItems < items.length then .error (.tooManyItems field)
    else (items.mapM (normalizeItem redactScalarStr field)).map .arr
  | value => normalizeScalar redactScalarStr field value

/-- The members one field of a schema becomes. -/
def sanitizeField (schema : AuditDetailSchema) (field : String)
    (value : AuditValue) :
    Except AuditDetailError (List (String × StoredJson)) :=
  if field ∈ schema.digestFields then
    match value with
    | .str s =>
      if maxAuditStringBytes < (encoded s).length then .error (.tooLarge field)
      else .ok [(field ++ "_sha256", .str (sha256Hex (encoded s))),
        (field ++ "_bytes", .num (.ofInt (encoded s).length))]
    | _ => .error (.digestNotString field)
  else
    (normalizeAuditScalar redactScalarStr field value).map fun v => [(field, v)]

/-- Names in code point order. -/
def sortedNames (names : List String) : List String :=
  names.insertionSort codeLe

/-- `sanitize_audit_detail`: the only form of a detail that is hashed. -/
def sanitizeAuditDetail (action : String)
    (detail : List (String × AuditValue)) :
    Except AuditDetailError StoredJson :=
  match schemas action with
  | none => .error (.unregisteredAction action)
  | some schema =>
    let actual := detail.map Prod.fst
    let missing := sortedNames (schema.fields.filter (· ∉ actual))
    let unexpected := sortedNames (actual.filter (· ∉ schema.fields))
    if missing ≠ [] ∨ unexpected ≠ [] then
      .error (.schemaMismatch missing unexpected)
    else do
      let members ← (sortedNames schema.fields).mapM fun field =>
        sanitizeField redactScalarStr sha256Hex schema field
          ((detail.lookup field).getD .none)
      pure (.obj members.flatten)

end Redaction

/-! ## Events -/

def genesis : String := String.ofList (List.replicate 64 '0')

def hashSchemaLegacy : Int := 1

def hashSchemaSequenced : Int := 2

/-- A row of `audit_events`. -/
structure AuditEvent where
  id : String
  seq : Option Int
  hashSchema : Int
  ts : Int
  tsIso : String
  actor : String
  actorUserID : Option String
  action : String
  agentID : Option String
  enrollmentTokenID : Option String
  organizationID : Option String
  sourceIP : Option String
  userAgent : Option String
  detail : StoredJson
  prevHash : String
  eventHash : String

/-- A nullable string column as JSON. -/
def jsonString : Option String → StoredJson
  | none => .null
  | some s => .str s

/-- A nullable integer column as JSON. -/
def jsonInt : Option Int → StoredJson
  | none => .null
  | some i => .num (.ofInt i)

/-- The document `_hash_event` hashes. -/
def AuditEvent.document (e : AuditEvent) : StoredJson :=
  .obj ([("prev_hash", .str e.prevHash), ("ts", .str e.tsIso),
    ("actor", .str e.actor), ("action", .str e.action),
    ("agent_id", jsonString e.agentID), ("detail", e.detail)]
    ++ if hashSchemaSequenced ≤ e.hashSchema then [("seq", jsonInt e.seq)]
      else [])

section Chain

variable (sha256Hex : Bytes → String)

/-- `json.dumps(doc, sort_keys=True, …).encode("utf-8")` -/
def AuditEvent.blob (e : AuditEvent) : Bytes := utf8 (dumpsSorted e.document)

/-- `_hash_event` -/
def hashEvent (e : AuditEvent) : String := sha256Hex e.blob

/-- `ORDER BY seq ASC`, null last. -/
def seqLe (a b : AuditEvent) : Prop :=
  match a.seq, b.seq with
  | some i, some j => i ≤ j
  | none, some _ => False
  | _, none => True

instance : DecidableRel seqLe := fun a b => by
  unfold seqLe
  split <;> infer_instance

/-- The loop of `verify_chain`: nothing, or the id of the first event that
breaks the chain. -/
def verifyLoop : List AuditEvent → String → Int → Bool → Option String
  | [], _, _, _ => none
  | e :: events, prev, expectedSeq, seenSequenced =>
    if e.seq ≠ some expectedSeq then some e.id
    else if e.hashSchema < hashSchemaSequenced ∧ seenSequenced = true then
      some e.id
    else if e.prevHash ≠ prev then some e.id
    else if hashEvent sha256Hex e ≠ e.eventHash then some e.id
    else verifyLoop events e.eventHash (expectedSeq + 1)
      (seenSequenced || decide (hashSchemaSequenced ≤ e.hashSchema))

/-- A table in sequence order, up to `throughSeq`. -/
def eventsThrough (throughSeq : Option Int) (table : List AuditEvent) :
    List AuditEvent :=
  (table.insertionSort seqLe).filter fun e =>
    match throughSeq with
    | none => true
    | some n => e.seq.any (· ≤ n)

/-- `verify_chain` -/
def verifyChain (table : List AuditEvent) (throughSeq : Option Int) :
    Bool × Option String :=
  match verifyLoop sha256Hex (eventsThrough throughSeq table) genesis 1 false with
  | none => (true, none)
  | some id => (false, some id)

/-! ## Appending -/

/-- `ORDER BY seq DESC`, null first. -/
def seqGe (a b : AuditEvent) : Prop := seqLe b a

instance : DecidableRel seqGe := fun a b => inferInstanceAs (Decidable (seqLe b a))

/-- `_chain_tail` of the rows a transaction sees. -/
def chainTail (rows : List AuditEvent) : String × Int :=
  match (rows.insertionSort seqGe).head? with
  | none => (genesis, 0)
  | some e => (e.eventHash, e.seq.getD 0)

/-- The arguments of `record`, the detail sanitized. -/
structure AuditEntry where
  action : String
  actor : String := "system"
  actorUserID : Option String := none
  agentID : Option String := none
  enrollmentTokenID : Option String := none
  organizationID : Option String := none
  sourceIP : Option String := none
  userAgent : Option String := none
  detail : StoredJson

variable (isoformat : Int → String)

/-- The row `record` adds, but for its hash. -/
def AuditEntry.unhashed (entry : AuditEntry) (id : String) (ts : Int)
    (prev : String) (prevSeq : Int) : AuditEvent where
  id := id
  seq := some (prevSeq + 1)
  hashSchema := hashSchemaSequenced
  ts := ts
  tsIso := isoformat ts
  actor := entry.actor
  actorUserID := entry.actorUserID
  action := entry.action
  agentID := entry.agentID
  enrollmentTokenID := entry.enrollmentTokenID
  organizationID := entry.organizationID
  sourceIP := entry.sourceIP
  userAgent := entry.userAgent
  detail := entry.detail
  prevHash := prev
  eventHash := ""

/-- The row `record` adds. -/
def AuditEntry.event (entry : AuditEntry) (id : String) (ts : Int)
    (prev : String) (prevSeq : Int) : AuditEvent :=
  { entry.unhashed isoformat id ts prev prevSeq with
    eventHash := hashEvent sha256Hex (entry.unhashed isoformat id ts prev prevSeq) }

/-! ## Transactions -/

/-- How far a transaction is in `record`. -/
inductive AppendStage where
  | idle
  | locked (entry : AuditEntry)
  | tailRead (entry : AuditEntry) (prev : String) (prevSeq : Int)

/-- A transaction: the rows it has flushed, newest first, which only it
sees. -/
structure AuditTxn where
  pending : List AuditEvent := []
  stage : AppendStage := .idle

/-- The database: committed rows, newest first, and who holds the append
lock. -/
structure AuditDB where
  committed : List AuditEvent
  lock : Option Nat := none
  txns : Nat → AuditTxn := fun _ => {}

namespace AuditDB

/-- The rows transaction `t` sees. -/
def visible (db : AuditDB) (t : Nat) : List AuditEvent :=
  (db.txns t).pending ++ db.committed

def setTxn (db : AuditDB) (t : Nat) (txn : AuditTxn) : AuditDB :=
  { db with txns := Function.update db.txns t txn }

/-- The transaction is over, and its lock is released. -/
def close (db : AuditDB) (t : Nat) : AuditDB :=
  { db.setTxn t {} with lock := if db.lock = some t then none else db.lock }

end AuditDB

/-- One step of one transaction. `entries` are the arguments `record` may be
called with, sanitized. -/
inductive AuditStep (entries : AuditEntry → Prop) (db : AuditDB) :
    AuditDB → Prop where
  | lock {t entry} (hidle : (db.txns t).stage = .idle) (hentry : entries entry)
      (hfree : db.lock = none ∨ db.lock = some t) :
      AuditStep entries db { db.setTxn t { db.txns t with stage := .locked entry }
        with lock := some t }
  | readTail {t entry} (hlocked : (db.txns t).stage = .locked entry) :
      AuditStep entries db (db.setTxn t { db.txns t with
        stage := .tailRead entry (chainTail (db.visible t)).1
          (chainTail (db.visible t)).2 })
  | flush {t entry prev prevSeq} (id : String) (ts : Int)
      (hread : (db.txns t).stage = .tailRead entry prev prevSeq)
      (hunique : ∀ e ∈ db.visible t, e.seq ≠ some (prevSeq + 1)) :
      AuditStep entries db (db.setTxn t
        { pending := entry.event sha256Hex isoformat id ts prev prevSeq
            :: (db.txns t).pending })
  | commit {t} (hidle : (db.txns t).stage = .idle) :
      AuditStep entries db { db.close t with committed := db.visible t }
  | rollback {t} : AuditStep entries db (db.close t)

/-- Any number of steps. -/
def AuditRun (entries : AuditEntry → Prop) : AuditDB → AuditDB → Prop :=
  Relation.ReflTransGen (AuditStep sha256Hex isoformat entries)

end Chain

end NodeLink.Server
