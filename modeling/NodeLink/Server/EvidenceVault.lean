import NodeLink.Lib.Calendar
import NodeLink.Lib.Sessions
import NodeLink.Lib.Utf8
import Mathlib.Data.List.Sort

/-!
# Evidence storage, retention and legal hold

`app/core/evidence_vault.py`: storing a signed package, verifying it, placing
and releasing holds, disposing of a package, and the sweep.

A request is a program over the database and the storage. It keeps the rows
it has loaded as it first read them, sees its own flushed writes, and writes
everything when it commits. A storage call may fail before or after it has
taken effect, and anything may be answered to a read of the storage. Columns
that none of this reads are left out, and so is the audit event of a request,
which commits with it.
-/

namespace NodeLink.Server.EvidenceVault

open Lib

/-! ## Rows -/

/-- An object key: the folder, and the package whose file
`evidence-package-<id>.zip` it is. Package ids are hexadecimal digests, so the
two can be told apart. -/
structure ObjectKey where
  folder : String
  packageId : String
  deriving DecidableEq

structure StorageReceipt where
  backend : String
  key : ObjectKey
  sha256 : String
  bytes : Nat
  versionId : Option Nat := none
  objectLockMode : Option String := none
  retainUntil : Option Int := none
  deriving DecidableEq

inductive RecordState where
  | stored
  | deleted
  deriving DecidableEq

inductive IntegrityState where
  | unverified
  | intact
  | tampered
  | missing
  | unavailable
  | lockDrift
  deriving DecidableEq

/-- `FAILING_STATES` -/
def IntegrityState.failing : IntegrityState → Bool
  | .tampered => true
  | .missing => true
  | .lockDrift => true
  | _ => false

/-- The columns of `EvidenceVaultRecord` that are written once. -/
structure StoredPackage where
  id : String
  clientId : String
  packageId : String
  backend : String
  folder : String
  sha256 : String
  sizeBytes : Nat
  storageReceipt : StorageReceipt
  receiptSha256 : String
  retentionMode : String
  retainUntil : Int
  storedAt : Int
  deriving DecidableEq

/-- `EvidenceVaultRecord` -/
structure VaultRecord extends StoredPackage where
  backendLegalHold : Bool := false
  state : RecordState := .stored
  integrityState : IntegrityState := .unverified
  lastVerifiedAt : Option Int := none
  lastVerifyError : Option String := none
  deletedAt : Option Int := none
  deletedByEmail : Option String := none
  deriving DecidableEq

def StoredPackage.objectKey (r : StoredPackage) : ObjectKey :=
  ⟨r.folder, r.packageId⟩

inductive HoldStatus where
  | active
  | released
  deriving DecidableEq

/-- `EvidenceLegalHold` -/
structure LegalHold where
  id : String
  clientId : String
  recordId : Option String
  scopeKey : String
  status : HoldStatus := .active
  reason : String
  placedByEmail : String
  placedAt : Int
  releasedByEmail : Option String := none
  releasedAt : Option Int := none
  releaseReason : Option String := none
  deriving DecidableEq

/-- An active hold of the tenant, on the record or on all of them. -/
def LegalHold.covers (h : LegalHold) (clientId recordId : String) : Bool :=
  h.clientId == clientId && h.status == .active &&
    (h.recordId == none || h.recordId == some recordId)

/-- The assignments a request makes to a record. -/
inductive RecordEdit where
  | legalHold (on : Bool)
  | verifyError (text : String)
  | verified (state : IntegrityState) (now : Int) (reason : Option String)
  | refused
  | disposed (now : Int) (email : String)
  deriving DecidableEq

def RecordEdit.apply (r : VaultRecord) : RecordEdit → VaultRecord
  | .legalHold on => { r with backendLegalHold := on }
  | .verifyError text => { r with lastVerifyError := some text }
  | .verified state now reason =>
    { r with
      integrityState := state
      lastVerifiedAt := some now
      lastVerifyError := reason }
  | .refused =>
    { r with
      integrityState := .lockDrift
      lastVerifyError := some "storage_refused_deletion" }
  | .disposed now email =>
    { r with
      state := .deleted
      deletedAt := some now
      deletedByEmail := some email }

/-! ## Tables and sessions -/

structure VaultTables where
  records : List VaultRecord := []
  holds : List LegalHold := []

inductive VaultWrite where
  | addRecord (r : VaultRecord)
  | addHold (h : LegalHold)
  | releaseHold (id : String) (now : Int) (email reason : String)
  | editRecord (id : String) (e : RecordEdit)

def VaultTables.write (db : VaultTables) : VaultWrite → VaultTables
  | .addRecord r => { db with records := db.records ++ [r] }
  | .addHold h => { db with holds := db.holds ++ [h] }
  | .releaseHold id now email reason =>
    { db with
      holds := db.holds.map fun h =>
        if h.id = id then
          { h with
            status := .released
            releasedAt := some now
            releasedByEmail := some email
            releaseReason := some reason }
        else h }
  | .editRecord id e =>
    { db with
      records := db.records.map fun r => if r.id = id then e.apply r else r }

/-- `ux_evidence_vault_backend_package` and
`ux_evidence_legal_hold_active_scope` let a write in. -/
def VaultTables.admits (db : VaultTables) : VaultWrite → Bool
  | .addRecord r => !db.records.any fun old =>
    old.backend == r.backend && old.packageId == r.packageId
  | .addHold h => !db.holds.any fun old =>
    old.clientId == h.clientId && old.scopeKey == h.scopeKey &&
      old.status == .active
  | _ => true

/-- Several writes, none of them refused. -/
def VaultTables.admitsAll (db : VaultTables) : List VaultWrite → Bool
  | [] => true
  | x :: xs => db.admits x && (db.write x).admitsAll xs

/-- The database session of a request: the rows it has loaded, the writes it
has flushed, and its assignments, which wait for the commit. -/
structure VaultSession where
  loaded : List VaultRecord := []
  flushed : List VaultWrite := []
  dirty : List VaultWrite := []

/-- What the session commits. -/
def VaultSession.writes (l : VaultSession) : List VaultWrite :=
  l.flushed ++ l.dirty

/-- What a query of the session runs on. -/
def VaultSession.view (l : VaultSession) (db : VaultTables) : VaultTables :=
  l.flushed.foldl VaultTables.write db

/-- A row as the session has it. -/
def VaultSession.mapped (l : VaultSession) (r : VaultRecord) : VaultRecord :=
  (l.loaded.find? fun old => old.id == r.id).getD r

/-! ## Storage -/

/-- `FilesystemVault` or `S3Vault`, with its settings. -/
inductive Vault where
  | filesystem
  | s3 (prefixFolder lockMode : String)
  deriving DecidableEq

def Vault.name : Vault → String
  | .filesystem => "filesystem"
  | .s3 .. => "s3"

/-- `enforces_lock` -/
def Vault.enforcesLock : Vault → Bool
  | .filesystem => false
  | .s3 .. => true

/-- `object_key` -/
def Vault.objectKey (vault : Vault) (clientId packageId : String) : ObjectKey :=
  match vault with
  | .filesystem => ⟨clientId, packageId⟩
  | .s3 prefixFolder _ =>
    if prefixFolder = "" then ⟨clientId, packageId⟩
    else ⟨(prefixFolder.dropEndWhile (· == '/')).toString ++ "/" ++ clientId,
      packageId⟩

/-- Where an object is. -/
structure Address where
  backend : String
  key : ObjectKey
  versionId : Option Nat
  deriving DecidableEq

/-- The object a record is about. -/
def StoredPackage.address (r : StoredPackage) : Address :=
  ⟨r.backend, r.objectKey, r.storageReceipt.versionId⟩

structure StoredObject where
  content : Bytes
  retainUntil : Int
  legalHold : Bool
  lockMode : Option String
  deriving DecidableEq

inductive StorageError where
  | unavailable (text : String)
  | misconfigured (text : String)
  | missing (text : String)
  | conflict (text : String)
  | deletionRefused (text : String)
  deriving DecidableEq

/-- `LockState` -/
structure LockState where
  mode : Option String
  retainUntil : Option Int
  legalHold : Bool

/-- `PutResult` -/
structure PutResult where
  receipt : StorageReceipt
  retentionMode : String

structure VaultWorld where
  db : VaultTables := {}
  objects : Address → Option StoredObject := fun _ => none
  versions : Nat := 0
  clock : Int

/-- The arguments of `put`, and the digest it computes. -/
structure Upload where
  vault : Vault
  key : ObjectKey
  payload : Bytes
  sha256 : String
  retainUntil : Int
  legalHold : Bool

namespace VaultWorld

def setObject (w : VaultWorld) (a : Address) (o : Option StoredObject) :
    VaultWorld :=
  { w with objects := Function.update w.objects a o }

/-- The object an upload leaves: an existing file stays, a bucket makes a new
version. -/
def upload (w : VaultWorld) (up : Upload) : VaultWorld :=
  match up.vault with
  | .filesystem =>
    if w.objects ⟨"filesystem", up.key, none⟩ = none then
      w.setObject ⟨"filesystem", up.key, none⟩
        (some ⟨up.payload, up.retainUntil, false, none⟩)
    else w
  | .s3 _ lockMode =>
    { w.setObject ⟨"s3", up.key, some w.versions⟩
        (some ⟨up.payload, up.retainUntil, up.legalHold, lockMode⟩) with
      versions := w.versions + 1 }

/-- Other bytes are where the upload would go. -/
def conflicts (w : VaultWorld) (up : Upload) : Bool :=
  match up.vault with
  | .filesystem =>
    match w.objects ⟨"filesystem", up.key, none⟩ with
    | some o => o.content != up.payload
    | none => false
  | .s3 .. => false

def putResult (w : VaultWorld) (up : Upload) : PutResult :=
  match up.vault with
  | .filesystem =>
    { receipt := {
        backend := "filesystem"
        key := up.key
        sha256 := up.sha256
        bytes := up.payload.length }
      retentionMode := "application" }
  | .s3 _ lockMode =>
    { receipt := {
        backend := "s3"
        key := up.key
        sha256 := up.sha256
        bytes := up.payload.length
        versionId := some w.versions
        objectLockMode := some lockMode
        retainUntil := some up.retainUntil }
      retentionMode := lockMode }

/-- `set_legal_hold`, where it takes effect. -/
def setHold (w : VaultWorld) (a : Address) (on : Bool) : VaultWorld :=
  w.setObject a ((w.objects a).map fun o => { o with legalHold := on })

end VaultWorld

/-! ## Actions -/

inductive VaultOp where
  | now
  | uuid
  | records (q : VaultTables → List VaultRecord)
  | hold (q : VaultTables → Option LegalHold)
  | exist (q : VaultTables → Bool)
  | flush (x : VaultWrite)
  | edit (id : String) (e : RecordEdit)
  | commit
  | put (up : Upload)
  | get (a : Address)
  | lockState (a : Address)
  | setLegalHold (a : Address) (on : Bool)
  | delete (a : Address)

abbrev VaultAns : VaultOp → Type
  | .now => Int
  | .uuid => String
  | .records _ => List VaultRecord
  | .hold _ => Option LegalHold
  | .exist _ => Bool
  | .flush _ => Bool
  | .edit .. => Unit
  | .commit => Unit
  | .put _ => Except StorageError PutResult
  | .get _ => Except StorageError Bytes
  | .lockState _ => Except StorageError LockState
  | .setLegalHold .. => Except StorageError Unit
  | .delete _ => Except StorageError Unit

/-- The request awaits the answer, and others may run. -/
def VaultOp.awaits : VaultOp → Bool
  | .now => false
  | .uuid => false
  | .edit .. => false
  | _ => true

/-- What an action may do. -/
def does (w : VaultWorld) (l : VaultSession) :
    (o : VaultOp) → VaultAns o → VaultWorld → VaultSession → Prop
  | .now, a, w', l' => a = w.clock ∧ w' = w ∧ l' = l
  | .uuid, _, w', l' => w' = w ∧ l' = l
  | .records q, rows, w', l' =>
    rows = (q (l.view w.db)).map l.mapped ∧ w' = w ∧
      l' = { l with loaded := l.loaded ++ rows }
  | .hold q, a, w', l' => a = q (l.view w.db) ∧ w' = w ∧ l' = l
  | .exist q, a, w', l' => a = q (l.view w.db) ∧ w' = w ∧ l' = l
  | .flush x, ok, w', l' =>
    ok = (l.view w.db).admits x ∧ w' = w ∧
      l' = if ok then { l with flushed := l.flushed ++ [x] } else l
  | .edit id e, _, w', l' =>
    w' = w ∧ l' = { l with
      loaded := l.loaded.map fun r => if r.id = id then e.apply r else r
      dirty := l.dirty ++ [.editRecord id e] }
  | .commit, _, w', l' =>
    l' = { l with flushed := [], dirty := [] } ∧
      w' = if w.db.admitsAll l.writes then
          { w with db := l.writes.foldl VaultTables.write w.db }
        else w
  | .put up, .ok result, w', l' =>
    w.conflicts up = false ∧ result = w.putResult up ∧ w' = w.upload up ∧
      l' = l
  | .put up, .error _, w', l' =>
    (w' = w ∨ w.conflicts up = false ∧ w' = w.upload up) ∧ l' = l
  | .get _, _, w', l' => w' = w ∧ l' = l
  | .lockState _, _, w', l' => w' = w ∧ l' = l
  | .setLegalHold a on, .ok _, w', l' =>
    w.objects a ≠ none ∧ w' = w.setHold a on ∧ l' = l
  | .setLegalHold a on, .error _, w', l' =>
    (w' = w ∨ w' = w.setHold a on) ∧ l' = l
  | .delete a, .ok _, w', l' => w' = w.setObject a none ∧ l' = l
  | .delete a, .error _, w', l' =>
    (w' = w ∨ w' = w.setObject a none) ∧ l' = l

/-! ## Operations -/

/-- `VaultError` -/
structure VaultError where
  code : String
  state : String
  statusCode : Nat
  deriving DecidableEq

/-- How an operation is cut short: by a `VaultError`, or by an exception that
nothing catches. -/
inductive VaultFault where
  | vault (e : VaultError)
  | integrityError
  | keyError (key : String)
  | storage (e : StorageError)
  deriving DecidableEq

abbrev VaultM (α : Type) := ExceptT VaultFault (Prog VaultOp VaultAns) α

def ask (o : VaultOp) : VaultM (VaultAns o) := ExceptT.lift (Prog.perform o)

def refuse {α : Type} (code state : String) (statusCode : Nat) : VaultM α :=
  throw (.vault ⟨code, state, statusCode⟩)

/-- The digests and the package verification. -/
structure PackageChecks where
  sha256 : Bytes → String
  receiptDigest : StorageReceipt → String
  verifySignedPackage : Bytes → Option String

/-- An assignment to a loaded record. -/
def assign (record : VaultRecord) (e : RecordEdit) : VaultM VaultRecord := do
  ask (.edit record.id e)
  return e.apply record

/-- The version id of an object in a bucket. -/
def Vault.versioned (record : VaultRecord) : VaultM Address :=
  match record.storageReceipt.versionId with
  | none => throw (.keyError "version_id")
  | some v => return ⟨"s3", record.objectKey, some v⟩

def Vault.setLegalHold (vault : Vault) (record : VaultRecord) (on : Bool) :
    VaultM (Except StorageError Unit) :=
  match vault with
  | .filesystem => return .ok ()
  | .s3 .. => do
    let a ← Vault.versioned record
    ask (.setLegalHold a on)

def Vault.get (vault : Vault) (record : VaultRecord) :
    VaultM (Except StorageError Bytes) :=
  match vault with
  | .filesystem => ask (.get ⟨"filesystem", record.objectKey, none⟩)
  | .s3 .. => do
    let a ← Vault.versioned record
    ask (.get a)

def Vault.lockState (vault : Vault) (record : VaultRecord) :
    VaultM (Except StorageError (Option LockState)) :=
  match vault with
  | .filesystem => return .ok none
  | .s3 .. => do
    let a ← Vault.versioned record
    return (← ask (.lockState a)).map some

def Vault.delete (vault : Vault) (record : VaultRecord) :
    VaultM (Except StorageError Unit) :=
  match vault with
  | .filesystem => ask (.delete ⟨"filesystem", record.objectKey, none⟩)
  | .s3 .. => do
    let a ← Vault.versioned record
    ask (.delete a)

/-- `_covering_hold_clause` -/
def coveringHoldClause (clientId recordId : String) (db : VaultTables) : Bool :=
  db.holds.any (·.covers clientId recordId)

/-- `hold_active_for` -/
def holdActiveFor (record : VaultRecord) : VaultM Bool :=
  ask (.exist (coveringHoldClause record.clientId record.id))

/-- `tenant_hold_active` -/
def tenantHoldActive (clientId : String) : VaultM Bool :=
  ask (.exist fun db => db.holds.any fun h =>
    h.clientId == clientId && h.status == .active && h.recordId == none)

/-- What `reconcile_hold` makes of its storage call. -/
def settleHold (record : VaultRecord) (expected : Bool) :
    Except StorageError Unit → VaultM (Bool × VaultRecord)
  | .ok _ => return (true, ← assign record (.legalHold expected))
  | .error (.unavailable text) | .error (.misconfigured text)
  | .error (.missing text) =>
    return (false, ← assign record (.verifyError (text.take 500).toString))
  | .error e => throw (.storage e)

/-- `reconcile_hold`, and the record as it leaves it. -/
def reconcileHold (vault : Vault) (record : VaultRecord) :
    VaultM (Bool × VaultRecord) := do
  if !vault.enforcesLock || record.state != .stored then
    return (true, record)
  let expected ← holdActiveFor record
  if record.backendLegalHold = expected then
    return (true, record)
  let answer ← vault.setLegalHold record expected
  settleHold record expected answer

/-! ### Store -/

structure VaultSettings where
  retentionDays : Int := 2555
  maxRetentionDays : Int := 36500
  verifyBatchSize : Nat := 100

/-- `resolve_retention_days` -/
def resolveRetentionDays (s : VaultSettings) (requested : Option Int) :
    VaultM Int :=
  let floor := max 1 s.retentionDays
  let ceiling := max floor s.maxRetentionDays
  let days := requested.getD floor
  if days < floor then
    refuse "evidence_retention_below_minimum" "invalid" 422
  else if ceiling < days then
    refuse "evidence_retention_above_maximum" "invalid" 422
  else return days

/-- `PackageArtifact` -/
structure PackageArtifact where
  packageId : String
  content : Bytes

/-- `store_package` -/
def storePackage (checks : PackageChecks) (vault : Vault) (clientId : String)
    (package : PackageArtifact) (retentionDays : Int) :
    VaultM (VaultRecord × Bool) := do
  let existing ← ask (.records fun db => db.records.filter fun r =>
    r.backend == vault.name && r.packageId == package.packageId)
  match existing with
  | record :: _ =>
    if record.state != .stored then
      refuse "evidence_package_disposed" "invalid" 409
    else return (record, false)
  | [] =>
    let now ← ask .now
    let retainUntil := now + retentionDays * dayMicros
    let held ← tenantHoldActive clientId
    let key := vault.objectKey clientId package.packageId
    match ← ask (.put {
      vault
      key
      payload := package.content
      sha256 := checks.sha256 package.content
      retainUntil
      legalHold := held }) with
    | .error (.conflict _) => refuse "evidence_object_conflict" "tampered" 409
    | .error (.misconfigured _) =>
      refuse "evidence_vault_misconfigured" "unavailable" 503
    | .error (.unavailable _) | .error (.missing _) =>
      refuse "evidence_vault_unavailable" "unavailable" 503
    | .error e => throw (.storage e)
    | .ok result =>
      let id ← ask .uuid
      let record : VaultRecord := {
        id
        clientId
        packageId := package.packageId
        backend := vault.name
        folder := key.folder
        sha256 := checks.sha256 package.content
        sizeBytes := package.content.length
        storageReceipt := result.receipt
        receiptSha256 := checks.receiptDigest result.receipt
        retentionMode := result.retentionMode
        retainUntil
        storedAt := now
        backendLegalHold := held && vault.enforcesLock
        integrityState := .intact
        lastVerifiedAt := some now }
      let flushed ← ask (.flush (.addRecord record))
      if flushed then return (record, true) else throw .integrityError

/-! ### Verify -/

/-- `_RETENTION_SLACK` -/
def retentionSlack : Int := 1000000

/-- What a check finds where the storage cannot answer a read. -/
def unreadable : StorageError → VaultM (IntegrityState × Option String)
  | .missing _ => return (.missing, some "object_not_found")
  | .unavailable _ => return (.unavailable, some "storage_unreachable")
  | .misconfigured _ => return (.unavailable, some "storage_unreachable")
  | e => throw (.storage e)

/-- The storage lock against the record. -/
def checkLock (record : VaultRecord) (holdExpected : Bool)
    (lock : Option LockState) : IntegrityState × Option String :=
  match lock with
  | none => (.lockDrift, some "retention_mode_weakened")
  | some lock =>
    if lock.mode ≠ some record.retentionMode then
      (.lockDrift, some "retention_mode_weakened")
    else if lock.retainUntil.all fun t =>
        t + retentionSlack < record.retainUntil then
      (.lockDrift, some "retention_shortened")
    else if holdExpected && !lock.legalHold then
      (.lockDrift, some "legal_hold_not_applied")
    else (.intact, none)

/-- The storage lock, where the backend has one. -/
def checkStorage (vault : Vault) (record : VaultRecord) (holdExpected : Bool) :
    VaultM (IntegrityState × Option String) := do
  if !vault.enforcesLock then return (.intact, none)
  match ← vault.lockState record with
  | .error e => unreadable e
  | .ok lock => return checkLock record holdExpected lock

/-- `_check` -/
def check (checks : PackageChecks) (vault : Vault) (record : VaultRecord)
    (holdExpected : Bool) : VaultM (IntegrityState × Option String) := do
  if checks.receiptDigest record.storageReceipt ≠ record.receiptSha256 then
    return (.tampered, some "receipt_digest_mismatch")
  match ← vault.get record with
  | .error e => unreadable e
  | .ok payload =>
    if payload.length ≠ record.sizeBytes ∨
        checks.sha256 payload ≠ record.sha256 then
      return (.tampered, some "content_digest_mismatch")
    match checks.verifySignedPackage payload with
    | none => return (.tampered, some "package_verification_failed")
    | some packageId =>
      if packageId ≠ record.packageId then
        return (.tampered, some "package_id_mismatch")
      checkStorage vault record holdExpected

/-- `VerifyOutcome` -/
structure VerifyOutcome where
  previousState : IntegrityState
  integrityState : IntegrityState
  reason : Option String

/-- `verify_record` -/
def verifyRecord (checks : PackageChecks) (vault : Vault)
    (record : VaultRecord) : VaultM VerifyOutcome :=
  if record.state ≠ .stored then
    refuse "evidence_record_disposed" "invalid" 409
  else do
    let previous := record.integrityState
    let (_, record) ← reconcileHold vault record
    let holdExpected ← holdActiveFor record
    let (state, reason) ← check checks vault record holdExpected
    let now ← ask .now
    let _ ← assign record (.verified state now reason)
    return ⟨previous, state, reason⟩

/-! ### Legal hold -/

/-- `HoldOutcome` -/
structure HoldOutcome where
  covered : Nat
  storageSynced : Nat
  storagePending : Nat

/-- `_covered_records` -/
def coveredRecords (clientId : String) (recordId : Option String) :
    VaultM (List VaultRecord) :=
  ask (.records fun db =>
    (db.records.filter fun r =>
      r.clientId == clientId && r.state == .stored &&
        (recordId == none || recordId == some r.id)).insertionSort
      fun a b => a.storedAt ≤ b.storedAt)

/-- `reconcile_hold` for some records: how many now agree, and how many do
not. -/
def reconcileAll (vault : Vault) : List VaultRecord → VaultM (Nat × Nat)
  | [] => return (0, 0)
  | record :: records => do
    let (agrees, _) ← reconcileHold vault record
    let (synced, pending) ← reconcileAll vault records
    return if agrees then (synced + 1, pending) else (synced, pending + 1)

/-- `_sync_holds`, or the count alone where there is no vault. -/
def syncHolds (vault : Option Vault) (clientId : String)
    (recordId : Option String) : VaultM HoldOutcome := do
  let records ← coveredRecords clientId recordId
  match vault with
  | none => return ⟨records.length, 0, 0⟩
  | some vault =>
    let (synced, pending) ← reconcileAll vault records
    return ⟨records.length, synced, pending⟩

/-- `place_hold` -/
def placeHold (vault : Option Vault) (clientId : String)
    (record : Option VaultRecord) (reason operatorEmail : String) :
    VaultM HoldOutcome := do
  let recordId := record.map (·.id)
  let scopeKey := recordId.getD "*"
  let conflict ← ask (.exist fun db => db.holds.any fun h =>
    h.clientId == clientId && h.scopeKey == scopeKey && h.status == .active)
  if conflict then refuse "legal_hold_conflict" "invalid" 409
  else
    let id ← ask .uuid
    let now ← ask .now
    let flushed ← ask (.flush (.addHold {
      id
      clientId
      recordId
      scopeKey
      reason
      placedByEmail := operatorEmail
      placedAt := now }))
    if flushed then syncHolds vault clientId recordId
    else refuse "legal_hold_conflict" "invalid" 409

/-- `release_hold` -/
def releaseHold (vault : Option Vault) (hold : LegalHold)
    (reason operatorEmail : String) : VaultM HoldOutcome :=
  if hold.status ≠ .active then refuse "legal_hold_not_active" "invalid" 409
  else do
    let now ← ask .now
    let _ ← ask (.flush (.releaseHold hold.id now operatorEmail reason))
    syncHolds vault hold.clientId hold.recordId

/-! ### Disposal -/

/-- `deletion_denial` -/
def deletionDenial (record : VaultRecord) (holdActive : Bool) (now : Int) :
    Option String :=
  if record.state ≠ .stored then some "evidence_record_disposed"
  else if holdActive then some "evidence_legal_hold_active"
  else if now < record.retainUntil then some "evidence_retention_active"
  else none

/-- `dispose_record` -/
def disposeRecord (vault : Vault) (record : VaultRecord)
    (operatorEmail : String) : VaultM Unit := do
  let now ← ask .now
  let holdActive ← holdActiveFor record
  match deletionDenial record holdActive now with
  | some denial => refuse denial "denied" 409
  | none =>
    match ← vault.delete record with
    | .ok _ | .error (.missing _) =>
      let _ ← assign record (.disposed now operatorEmail)
    | .error (.deletionRefused _) =>
      let _ ← assign record .refused
      refuse "evidence_storage_refused_deletion" "denied" 409
    | .error (.unavailable _) | .error (.misconfigured _) =>
      refuse "evidence_vault_unavailable" "unavailable" 503
    | .error e => throw (.storage e)

/-! ### Sweep -/

/-- `SweepResult` -/
structure SweepResult where
  verified : Nat
  newlyFailing : List (VaultRecord × VerifyOutcome)
  holdsReconciled : Nat
  holdsPending : Nat

/-- The records whose storage hold is not the one the hold rows ask for. -/
def drifted (vault : Vault) (batch : Nat) (db : VaultTables) :
    List VaultRecord :=
  (db.records.filter fun r =>
    r.state == .stored && r.backend == vault.name &&
      coveringHoldClause r.clientId r.id db != r.backendLegalHold).take batch

/-- The first half of a sweep. -/
def reconcileDrifted (vault : Vault) (batch : Nat) : VaultM (Nat × Nat) :=
  if vault.enforcesLock then do
    let records ← ask (.records (drifted vault batch))
    reconcileAll vault records
  else return (0, 0)

/-- `asc().nulls_first()` -/
def nullsFirst : Option Int → Option Int → Bool
  | none, _ => true
  | some _, none => false
  | some s, some t => decide (s ≤ t)

/-- The least recently verified records. -/
def verifyQueue (vault : Vault) (batch : Nat) (db : VaultTables) :
    List VaultRecord :=
  ((db.records.filter fun r =>
    r.state == .stored && r.backend == vault.name).insertionSort fun a b =>
      nullsFirst a.lastVerifiedAt b.lastVerifiedAt).take batch

/-- `verify_record` for some records, and those that newly fail. -/
def verifyAll (checks : PackageChecks) (vault : Vault) :
    List VaultRecord → VaultM (List (VaultRecord × VerifyOutcome))
  | [] => return []
  | record :: records => do
    let outcome ← verifyRecord checks vault record
    let failing ← verifyAll checks vault records
    if outcome.integrityState.failing &&
        outcome.previousState != outcome.integrityState then
      return (record, outcome) :: failing
    else return failing

/-- `sweep` -/
def sweep (checks : PackageChecks) (s : VaultSettings) (vault : Vault) :
    VaultM SweepResult := do
  let batch := max 1 s.verifyBatchSize
  let (reconciled, pending) ← reconcileDrifted vault batch
  let queue ← ask (.records (verifyQueue vault batch))
  let failing ← verifyAll checks vault queue
  return ⟨queue.length, failing, reconciled, pending⟩

/-! ## Requests -/

inductive VaultRequest where
  | store (vault : Vault) (clientId : String) (package : PackageArtifact)
    (retentionDays : Option Int)
  | placeHold (vault : Option Vault) (clientId : String)
    (recordId : Option String) (reason operatorEmail : String)
  | releaseHold (vault : Option Vault) (holdId reason operatorEmail : String)
  | reconcile (vault : Vault) (recordId : String)
  | verify (vault : Vault) (recordId : String)
  | dispose (vault : Vault) (recordId operatorEmail : String)
  | sweep (vault : Vault)

/-- `db.get(EvidenceVaultRecord, record_id)` -/
def getRecord (recordId : String) : VaultM VaultRecord := do
  match ← ask (.records fun db => db.records.filter (·.id == recordId)) with
  | record :: _ => return record
  | [] => refuse "evidence_record_not_found" "missing" 404

/-- `require_same_backend` -/
def requireSameBackend (vault : Vault) (record : VaultRecord) : VaultM Unit :=
  if record.backend ≠ vault.name then
    refuse "evidence_vault_backend_mismatch" "unsupported" 409
  else return ()

/-- A `VaultError` -/
def VaultFault.refused : VaultFault → Bool
  | .vault _ => true
  | _ => false

/-- A `VaultError` in state `denied` -/
def VaultFault.denied : VaultFault → Bool
  | .vault e => e.state == "denied"
  | _ => false

/-- The request is committed after some failures too. -/
def keepIf (keeps : VaultFault → Bool) (x : VaultM Unit) : VaultM Unit :=
  tryCatch x fun e => if keeps e then return () else throw e

/-- A request up to its commit. A refused store commits what it has, and so
does a denied disposal. -/
def VaultRequest.handler (checks : PackageChecks) (s : VaultSettings) :
    VaultRequest → VaultM Unit
  | .store vault clientId package requested => do
    let days ← resolveRetentionDays s requested
    keepIf VaultFault.refused do
      let _ ← storePackage checks vault clientId package days
  | .placeHold vault clientId none reason email => do
    let _ ← EvidenceVault.placeHold vault clientId none reason email
  | .placeHold vault clientId (some recordId) reason email => do
    let record ← getRecord recordId
    if record.clientId ≠ clientId then
      refuse "evidence_record_not_found" "missing" 404
    else if record.state ≠ .stored then
      refuse "evidence_record_disposed" "invalid" 409
    else
      let _ ← EvidenceVault.placeHold vault clientId (some record) reason
        email
  | .releaseHold vault holdId reason email => do
    match ← ask (.hold fun db => db.holds.find? (·.id == holdId)) with
    | none => refuse "legal_hold_not_found" "missing" 404
    | some hold => let _ ← EvidenceVault.releaseHold vault hold reason email
  | .reconcile vault recordId => do
    let record ← getRecord recordId
    let _ ← reconcileHold vault record
  | .verify vault recordId => do
    let record ← getRecord recordId
    requireSameBackend vault record
    let _ ← verifyRecord checks vault record
  | .dispose vault recordId email => do
    let record ← getRecord recordId
    requireSameBackend vault record
    keepIf VaultFault.denied (disposeRecord vault record email)
  | .sweep vault => do
    let _ ← EvidenceVault.sweep checks s vault

/-- `get_db` commits when the handler is done, and rolls back when it is
not. -/
def VaultRequest.program (checks : PackageChecks) (s : VaultSettings)
    (request : VaultRequest) : Prog VaultOp VaultAns Unit := do
  match ← (request.handler checks s).run with
  | .ok _ => Prog.perform VaultOp.commit
  | .error _ => return ()

/-- The requests, the storage and the clock. -/
def rules (checks : PackageChecks) (s : VaultSettings) :
    Rules VaultOp VaultAns VaultWorld VaultSession where
  does := does
  starts l p :=
    l = {} ∧ ∃ request : VaultRequest, p = request.program checks s
  drift w w' := ∃ later, w.clock ≤ later ∧ w' = { w with clock := later }

abbrev VaultCrew := Crew VaultOp VaultAns VaultWorld VaultSession

end NodeLink.Server.EvidenceVault
