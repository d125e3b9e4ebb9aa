import NodeLink.Server.EvidenceVault

/-!
# Evidence under a hold, and before its retention date

Only a disposal deletes. It checks the holds and the retention date first, so
nothing is deleted early unless a hold is committed between that check and
the delete call. A hold that a record has while its storage hold is being
reconciled is what the storage is told.
-/

namespace NodeLink.Server.EvidenceVault

open Lib

/-! ## Only a disposal deletes -/

/-- Every action but a deletion. -/
def Spares : VaultOp → Prop
  | .delete _ => False
  | _ => True

theorem uses_ask {o : VaultOp} (h : Spares o) : (ask o).run.Uses Spares :=
  Prog.uses_lift ⟨h, fun _ => trivial⟩

theorem uses_refuse {α : Type} {code state : String} {n : Nat} :
    (refuse code state n : VaultM α).run.Uses Spares := trivial

theorem uses_pure {α : Type} {a : α} : (pure a : VaultM α).run.Uses Spares :=
  trivial

theorem uses_throw {α : Type} {e : VaultFault} :
    (throw e : VaultM α).run.Uses Spares := trivial

theorem assign_uses (record : VaultRecord) (e : RecordEdit) :
    (assign record e).run.Uses Spares :=
  Prog.uses_andThen (uses_ask trivial) fun _ => uses_pure

theorem versioned_uses (record : VaultRecord) :
    (Vault.versioned record).run.Uses Spares := by
  rw [Vault.versioned]
  split
  · exact uses_throw
  · exact uses_pure

theorem setLegalHold_uses (vault : Vault) (record : VaultRecord) (on : Bool) :
    (vault.setLegalHold record on).run.Uses Spares := by
  cases vault with
  | filesystem => exact uses_pure
  | s3 _ _ =>
      exact Prog.uses_andThen (versioned_uses record) fun _ => uses_ask trivial

theorem get_uses (vault : Vault) (record : VaultRecord) :
    (vault.get record).run.Uses Spares := by
  cases vault with
  | filesystem => exact uses_ask trivial
  | s3 _ _ =>
      exact Prog.uses_andThen (versioned_uses record) fun _ => uses_ask trivial

theorem lockState_uses (vault : Vault) (record : VaultRecord) :
    (vault.lockState record).run.Uses Spares := by
  cases vault with
  | filesystem => exact uses_pure
  | s3 _ _ =>
      exact Prog.uses_andThen (versioned_uses record) fun _ =>
        Prog.uses_andThen (uses_ask trivial) fun _ => uses_pure

theorem settleHold_uses (record : VaultRecord) (expected : Bool)
    (answer : Except StorageError Unit) :
    (settleHold record expected answer).run.Uses Spares := by
  rw [settleHold.eq_def]
  split
  · exact Prog.uses_andThen (assign_uses _ _) fun _ => uses_pure
  · exact Prog.uses_andThen (assign_uses _ _) fun _ => uses_pure
  · exact Prog.uses_andThen (assign_uses _ _) fun _ => uses_pure
  · exact Prog.uses_andThen (assign_uses _ _) fun _ => uses_pure
  · exact uses_throw

theorem reconcileHold_uses (vault : Vault) (record : VaultRecord) :
    (reconcileHold vault record).run.Uses Spares := by
  rw [reconcileHold]
  split
  · exact uses_pure
  · refine Prog.uses_andThen (uses_ask trivial) fun expected => ?_
    split
    · exact uses_pure
    · exact Prog.uses_andThen (setLegalHold_uses _ _ _) fun answer =>
        settleHold_uses _ _ _

theorem reconcileAll_uses (vault : Vault) (records : List VaultRecord) :
    (reconcileAll vault records).run.Uses Spares := by
  induction records with
  | nil => exact uses_pure
  | cons record records ih =>
      exact Prog.uses_andThen (reconcileHold_uses _ _) fun _ =>
        Prog.uses_andThen ih fun _ => uses_pure

theorem syncHolds_uses (vault : Option Vault) (clientId : String)
    (recordId : Option String) :
    (syncHolds vault clientId recordId).run.Uses Spares := by
  refine Prog.uses_andThen (uses_ask trivial) fun records => ?_
  cases vault with
  | none => exact uses_pure
  | some vault =>
      exact Prog.uses_andThen (reconcileAll_uses _ _) fun _ => uses_pure

theorem placeHold_uses (vault : Option Vault) (clientId : String)
    (record : Option VaultRecord) (reason email : String) :
    (placeHold vault clientId record reason email).run.Uses Spares := by
  refine Prog.uses_andThen (uses_ask trivial) fun conflict => ?_
  split
  · exact uses_refuse
  · refine Prog.uses_andThen (uses_ask trivial) fun id => ?_
    refine Prog.uses_andThen (uses_ask trivial) fun now => ?_
    refine Prog.uses_andThen (uses_ask trivial) fun flushed => ?_
    split
    · exact syncHolds_uses _ _ _
    · exact uses_refuse

theorem releaseHold_uses (vault : Option Vault) (hold : LegalHold)
    (reason email : String) :
    (releaseHold vault hold reason email).run.Uses Spares := by
  rw [releaseHold]
  split
  · exact uses_refuse
  · refine Prog.uses_andThen (uses_ask trivial) fun now => ?_
    exact Prog.uses_andThen (uses_ask trivial) fun _ => syncHolds_uses _ _ _

theorem resolveRetentionDays_uses (s : VaultSettings) (days : Option Int) :
    (resolveRetentionDays s days).run.Uses Spares := by
  rw [resolveRetentionDays]
  split
  · exact uses_refuse
  · split
    · exact uses_refuse
    · exact uses_pure

theorem storePackage_uses (checks : PackageChecks) (vault : Vault)
    (clientId : String) (package : PackageArtifact) (days : Int) :
    (storePackage checks vault clientId package days).run.Uses Spares := by
  refine Prog.uses_andThen (uses_ask trivial) fun existing => ?_
  split
  · split
    · exact uses_refuse
    · exact uses_pure
  · refine Prog.uses_andThen (uses_ask trivial) fun now => ?_
    refine Prog.uses_andThen (uses_ask trivial) fun held => ?_
    refine Prog.uses_andThen (uses_ask trivial) fun r => ?_
    split
    · exact uses_refuse
    · exact uses_refuse
    · exact uses_refuse
    · exact uses_refuse
    · exact uses_throw
    · refine Prog.uses_andThen (uses_ask trivial) fun id => ?_
      refine Prog.uses_andThen (uses_ask trivial) fun flushed => ?_
      split
      · exact uses_pure
      · exact uses_throw

theorem unreadable_uses (e : StorageError) :
    (unreadable e).run.Uses Spares := by
  cases e with
  | missing _ => exact uses_pure
  | unavailable _ => exact uses_pure
  | misconfigured _ => exact uses_pure
  | conflict _ => exact uses_throw
  | deletionRefused _ => exact uses_throw

theorem checkStorage_uses (vault : Vault) (record : VaultRecord) (held : Bool) :
    (checkStorage vault record held).run.Uses Spares := by
  rw [checkStorage]
  split
  · exact uses_pure
  · refine Prog.uses_andThen (lockState_uses _ _) fun r => ?_
    split
    · exact unreadable_uses _
    · exact uses_pure

theorem check_uses (checks : PackageChecks) (vault : Vault)
    (record : VaultRecord) (held : Bool) :
    (check checks vault record held).run.Uses Spares := by
  rw [check]
  split
  · exact uses_pure
  · refine Prog.uses_andThen (get_uses _ _) fun r => ?_
    split
    · exact unreadable_uses _
    · split
      · exact uses_pure
      · split
        · exact uses_pure
        · split
          · exact uses_pure
          · exact checkStorage_uses _ _ _

theorem verifyRecord_uses (checks : PackageChecks) (vault : Vault)
    (record : VaultRecord) :
    (verifyRecord checks vault record).run.Uses Spares := by
  rw [verifyRecord]
  split
  · exact uses_refuse
  · refine Prog.uses_andThen (reconcileHold_uses _ _) fun r => ?_
    refine Prog.uses_andThen (uses_ask trivial) fun held => ?_
    refine Prog.uses_andThen (check_uses _ _ _ _) fun found => ?_
    refine Prog.uses_andThen (uses_ask trivial) fun now => ?_
    exact Prog.uses_andThen (assign_uses _ _) fun _ => uses_pure

theorem verifyAll_uses (checks : PackageChecks) (vault : Vault)
    (records : List VaultRecord) :
    (verifyAll checks vault records).run.Uses Spares := by
  induction records with
  | nil => exact uses_pure
  | cons record records ih =>
      refine Prog.uses_andThen (verifyRecord_uses _ _ _) fun outcome => ?_
      refine Prog.uses_andThen ih fun failing => ?_
      split
      · exact uses_pure
      · exact uses_pure

theorem sweep_uses (checks : PackageChecks) (s : VaultSettings)
    (vault : Vault) : (sweep checks s vault).run.Uses Spares := by
  refine Prog.uses_andThen ?_ fun counts => ?_
  · rw [reconcileDrifted]
    split
    · exact Prog.uses_andThen (uses_ask trivial) fun records =>
        reconcileAll_uses _ _
    · exact uses_pure
  · refine Prog.uses_andThen (uses_ask trivial) fun queue => ?_
    exact Prog.uses_andThen (verifyAll_uses _ _ _) fun _ => uses_pure

theorem getRecord_uses (recordId : String) :
    (getRecord recordId).run.Uses Spares := by
  refine Prog.uses_andThen (uses_ask trivial) fun rows => ?_
  split
  · exact uses_pure
  · exact uses_refuse

theorem requireSameBackend_uses (vault : Vault) (record : VaultRecord) :
    (requireSameBackend vault record).run.Uses Spares := by
  rw [requireSameBackend]
  split
  · exact uses_refuse
  · exact uses_pure

/-- A request that is no disposal. -/
def VaultRequest.disposes : VaultRequest → Bool
  | .dispose .. => true
  | _ => false

theorem handler_uses {checks : PackageChecks} {s : VaultSettings}
    {request : VaultRequest} (h : request.disposes = false) :
    (request.handler checks s).run.Uses Spares := by
  cases request with
  | store vault clientId package requested =>
      refine Prog.uses_andThen (resolveRetentionDays_uses _ _) fun days => ?_
      refine Prog.uses_tryCatch ?_ fun e => ?_
      · exact Prog.uses_andThen (storePackage_uses _ _ _ _ _) fun _ => uses_pure
      · split
        · exact uses_pure
        · exact uses_throw
  | placeHold vault clientId recordId reason email =>
      cases recordId with
      | none =>
          exact Prog.uses_andThen (placeHold_uses _ _ _ _ _) fun _ => uses_pure
      | some recordId =>
          refine Prog.uses_andThen (getRecord_uses _) fun record => ?_
          split
          · exact uses_refuse
          · split
            · exact uses_refuse
            · exact Prog.uses_andThen (placeHold_uses _ _ _ _ _) fun _ =>
                uses_pure
  | releaseHold vault holdId reason email =>
      refine Prog.uses_andThen (uses_ask trivial) fun hold => ?_
      split
      · exact uses_refuse
      · exact Prog.uses_andThen (releaseHold_uses _ _ _ _) fun _ => uses_pure
  | reconcile vault recordId =>
      refine Prog.uses_andThen (getRecord_uses _) fun record => ?_
      exact Prog.uses_andThen (reconcileHold_uses _ _) fun _ => uses_pure
  | verify vault recordId =>
      refine Prog.uses_andThen (getRecord_uses _) fun record => ?_
      refine Prog.uses_andThen (requireSameBackend_uses _ _) fun _ => ?_
      exact Prog.uses_andThen (verifyRecord_uses _ _ _) fun _ => uses_pure
  | dispose vault recordId email =>
      exact absurd h (by simp [VaultRequest.disposes])
  | sweep vault =>
      exact Prog.uses_andThen (sweep_uses _ _ _) fun _ => uses_pure

/-! ## What the others leave as it is -/

/-- A package is stored in a backend once. -/
def OneRecordEach (w : VaultWorld) : Prop :=
  ∀ r ∈ w.db.records, ∀ r' ∈ w.db.records, r.backend = r'.backend →
    r.packageId = r'.packageId → r.toStoredPackage = r'.toStoredPackage

/-- The record is a row of the table, but for the columns that change. -/
def Recorded (db : VaultTables) (r : StoredPackage) : Prop :=
  ∃ r' ∈ db.records, r'.toStoredPackage = r

/-- What may happen before `o` is taken: a deletion that is about to be made
waits for the holds of its record. -/
structure Leaves (o : VaultOp) (w w' : VaultWorld) : Prop where
  clock : w.clock ≤ w'.clock
  records : ∀ r, Recorded w.db r → Recorded w'.db r
  holds : ∀ a, o = .delete a → ∀ r, Recorded w.db r → r.address = a →
    coveringHoldClause r.clientId r.id w'.db = true →
      coveringHoldClause r.clientId r.id w.db = true

/-- Only what no hold covers, and whose retention is over, is deleted. -/
def Permitted (w : VaultWorld) (_ : VaultSession) (o : VaultOp) : Prop :=
  ∀ a, o = .delete a → ∀ r ∈ w.db.records, r.address = a →
    coveringHoldClause r.clientId r.id w.db = false ∧ r.retainUntil ≤ w.clock

theorem leaves_refl (o : VaultOp) (w : VaultWorld) : Leaves o w w :=
  ⟨le_refl _, fun _ h => h, fun _ _ _ _ _ h => h⟩

theorem leaves_trans {o : VaultOp} {u v w : VaultWorld} (h : Leaves o u v)
    (h' : Leaves o v w) : Leaves o u w where
  clock := h.clock.trans h'.clock
  records r hr := h'.records r (h.records r hr)
  holds a ho r hr ha hc :=
    h.holds a ho r hr ha (h'.holds a ho r (h.records r hr) ha hc)

/-- The database as it was, and a clock that is no earlier. -/
theorem leaves_of_db {o : VaultOp} {w w' : VaultWorld} (hdb : w'.db = w.db)
    (hclock : w.clock ≤ w'.clock) : Leaves o w w' where
  clock := hclock
  records _ hr := hdb ▸ hr
  holds _ _ _ _ _ hc := hdb ▸ hc

/-! ### Writes -/

theorem edit_stored (r : VaultRecord) (e : RecordEdit) :
    (e.apply r).toStoredPackage = r.toStoredPackage := by
  cases e <;> rfl

theorem recorded_write {db : VaultTables} {r : StoredPackage} (x : VaultWrite)
    (h : Recorded db r) : Recorded (db.write x) r := by
  obtain ⟨r', hr', rfl⟩ := h
  cases x with
  | addRecord new => exact ⟨r', List.mem_append_left _ hr', rfl⟩
  | addHold _ => exact ⟨r', hr', rfl⟩
  | releaseHold _ _ _ _ => exact ⟨r', hr', rfl⟩
  | editRecord id e =>
      refine ⟨_, List.mem_map_of_mem hr', ?_⟩
      split
      · exact edit_stored r' e
      · rfl

theorem recorded_writes {db : VaultTables} {r : StoredPackage}
    (xs : List VaultWrite) (h : Recorded db r) :
    Recorded (xs.foldl VaultTables.write db) r := by
  induction xs generalizing db with
  | nil => exact h
  | cons x xs ih => exact ih (recorded_write x h)

/-- A record after a write is one from before, or new. -/
theorem mem_write {db : VaultTables} {x : VaultWrite} {r : VaultRecord}
    (h : r ∈ (db.write x).records) :
    Recorded db r.toStoredPackage ∨ x = .addRecord r := by
  cases x with
  | addRecord new =>
      rcases List.mem_append.mp h with hold | hnew
      · exact .inl ⟨r, hold, rfl⟩
      · exact .inr (by rw [List.mem_singleton.mp hnew])
  | addHold _ => exact .inl ⟨r, h, rfl⟩
  | releaseHold _ _ _ _ => exact .inl ⟨r, h, rfl⟩
  | editRecord id e =>
      obtain ⟨old, hold, rfl⟩ := List.mem_map.mp h
      refine .inl ⟨old, hold, ?_⟩
      split
      · exact (edit_stored old e).symm
      · rfl

theorem admits_new {db : VaultTables} {r old : VaultRecord}
    (h : db.admits (.addRecord r) = true) (hold : old ∈ db.records)
    (hb : old.backend = r.backend) : old.packageId ≠ r.packageId := by
  intro hp
  have hnone := List.any_eq_false.mp (Bool.not_eq_true' _ ▸ h) old hold
  simp [hb, hp] at hnone

theorem oneRecordEach_write {w : VaultWorld} {x : VaultWrite}
    (h : OneRecordEach w) (hx : w.db.admits x = true) :
    OneRecordEach { w with db := w.db.write x } := by
  have fresh : ∀ r : VaultRecord, ∀ old, Recorded w.db old →
      x = .addRecord r → old.backend = r.backend →
        old.packageId ≠ r.packageId := by
    rintro r _ ⟨old, hold, rfl⟩ rfl hb
    exact admits_new hx hold hb
  intro r hr r' hr' hb hp
  rcases mem_write hr with ⟨old, hold, he⟩ | hnew
  · rcases mem_write hr' with ⟨old', hold', he'⟩ | hnew'
    · rw [← he, ← he'] at hb hp ⊢
      exact h old hold old' hold' hb hp
    · exact absurd hp (fresh r' _ ⟨old, hold, he⟩ hnew' hb)
  · rcases mem_write hr' with ⟨old', hold', he'⟩ | hnew'
    · exact absurd hp.symm (fresh r _ ⟨old', hold', he'⟩ hnew hb.symm)
    · rw [hnew] at hnew'
      rw [VaultWrite.addRecord.inj hnew']

theorem oneRecordEach_writes {w : VaultWorld} {xs : List VaultWrite}
    (h : OneRecordEach w) (hx : w.db.admitsAll xs = true) :
    OneRecordEach { w with db := xs.foldl VaultTables.write w.db } := by
  induction xs generalizing w with
  | nil => exact h
  | cons x xs ih =>
      rw [VaultTables.admitsAll, Bool.and_eq_true] at hx
      exact ih (oneRecordEach_write h hx.1) hx.2

/-- A record that a write leaves covered was covered, or the write places the
hold. -/
theorem covering_write {db : VaultTables} {x : VaultWrite}
    {clientId recordId : String}
    (h : coveringHoldClause clientId recordId (db.write x) = true) :
    coveringHoldClause clientId recordId db = true ∨
      ∃ new, x = .addHold new ∧ new.covers clientId recordId = true := by
  obtain ⟨hd, hmem, hcovers⟩ := List.any_eq_true.mp h
  cases x with
  | addRecord _ => exact .inl h
  | addHold new =>
      rcases List.mem_append.mp hmem with hold | hnew
      · exact .inl (List.any_eq_true.mpr ⟨hd, hold, hcovers⟩)
      · obtain rfl := List.mem_singleton.mp hnew
        exact .inr ⟨hd, rfl, hcovers⟩
  | releaseHold id now email reason =>
      obtain ⟨old, hold, rfl⟩ := List.mem_map.mp hmem
      split at hcovers
      · -- a released hold covers nothing
        simp [LegalHold.covers] at hcovers
      · exact .inl (List.any_eq_true.mpr ⟨old, hold, hcovers⟩)
  | editRecord _ _ => exact .inl h

theorem covering_writes {db : VaultTables} {xs : List VaultWrite}
    {clientId recordId : String}
    (h : coveringHoldClause clientId recordId
      (xs.foldl VaultTables.write db) = true) :
    coveringHoldClause clientId recordId db = true ∨
      ∃ new, .addHold new ∈ xs ∧ new.covers clientId recordId = true := by
  induction xs generalizing db with
  | nil => exact .inl h
  | cons x xs ih =>
      rcases ih h with hdb | ⟨new, hmem, hcovers⟩
      · rcases covering_write hdb with hold | ⟨new, rfl, hcovers⟩
        · exact .inl hold
        · exact .inr ⟨new, List.mem_cons_self, hcovers⟩
      · exact .inr ⟨new, List.mem_cons_of_mem _ hmem, hcovers⟩

/-! ### Actions -/

@[simp] theorem setObject_db (w : VaultWorld) (a : Address)
    (o : Option StoredObject) : (w.setObject a o).db = w.db := rfl

@[simp] theorem setObject_clock (w : VaultWorld) (a : Address)
    (o : Option StoredObject) : (w.setObject a o).clock = w.clock := rfl

theorem setObject_objects (w : VaultWorld) (a : Address)
    (o : Option StoredObject) :
    (w.setObject a o).objects = Function.update w.objects a o := rfl

theorem upload_db (w : VaultWorld) (up : Upload) :
    (w.upload up).db = w.db ∧ (w.upload up).clock = w.clock := by
  rw [VaultWorld.upload]
  split
  · split
    · exact ⟨rfl, rfl⟩
    · exact ⟨rfl, rfl⟩
  · exact ⟨rfl, rfl⟩

/-- Only a commit changes the tables, and no action turns the clock. -/
theorem does_db {w w' : VaultWorld} {l l' : VaultSession} {o : VaultOp}
    {a : VaultAns o} (h : does w l o a w' l') :
    w'.db = w.db ∧ w'.clock = w.clock ∨ o = .commit ∧
      w.db.admitsAll l.writes = true ∧
      w' = { w with db := l.writes.foldl VaultTables.write w.db } := by
  cases o with
  | now => exact .inl (by rw [h.2.1]; exact ⟨rfl, rfl⟩)
  | uuid => exact .inl (by rw [h.1]; exact ⟨rfl, rfl⟩)
  | records _ => exact .inl (by rw [h.2.1]; exact ⟨rfl, rfl⟩)
  | hold _ => exact .inl (by rw [h.2.1]; exact ⟨rfl, rfl⟩)
  | exist _ => exact .inl (by rw [h.2.1]; exact ⟨rfl, rfl⟩)
  | flush _ => exact .inl (by rw [h.2.1]; exact ⟨rfl, rfl⟩)
  | edit _ _ => exact .inl (by rw [h.1]; exact ⟨rfl, rfl⟩)
  | commit =>
      have hw := h.2
      split at hw
      · next hadmits => exact .inr ⟨rfl, hadmits, hw⟩
      · exact .inl (by rw [hw]; exact ⟨rfl, rfl⟩)
  | put up =>
      cases a with
      | ok result => exact .inl (by rw [h.2.2.1]; exact upload_db w up)
      | error e =>
          rcases h.1 with hw | ⟨-, hw⟩
          · exact .inl (by rw [hw]; exact ⟨rfl, rfl⟩)
          · exact .inl (by rw [hw]; exact upload_db w up)
  | get _ => exact .inl (by rw [h.1]; exact ⟨rfl, rfl⟩)
  | lockState _ => exact .inl (by rw [h.1]; exact ⟨rfl, rfl⟩)
  | setLegalHold _ _ =>
      cases a with
      | ok _ => exact .inl (by rw [h.2.1]; exact ⟨rfl, rfl⟩)
      | error e =>
          rcases h.1 with hw | hw
          · exact .inl (by rw [hw]; exact ⟨rfl, rfl⟩)
          · exact .inl (by rw [hw]; exact ⟨rfl, rfl⟩)
  | delete _ =>
      cases a with
      | ok _ => exact .inl (by rw [h.1]; exact ⟨rfl, rfl⟩)
      | error e =>
          rcases h.1 with hw | hw
          · exact .inl (by rw [hw]; exact ⟨rfl, rfl⟩)
          · exact .inl (by rw [hw]; exact ⟨rfl, rfl⟩)

theorem setObject_keeps {w : VaultWorld} {a b : Address} {o : StoredObject}
    (h : w.objects a ≠ none) : (w.setObject b (some o)).objects a ≠ none := by
  rw [setObject_objects, Function.update_apply]
  split
  · exact nofun
  · exact h

theorem upload_keeps {w : VaultWorld} {a : Address} (up : Upload)
    (h : w.objects a ≠ none) : (w.upload up).objects a ≠ none := by
  rw [VaultWorld.upload]
  split
  · split
    · exact setObject_keeps h
    · exact h
  · exact setObject_keeps h

theorem setHold_keeps {w : VaultWorld} {a b : Address} (on : Bool)
    (h : w.objects a ≠ none) : (w.setHold b on).objects a ≠ none := by
  rw [VaultWorld.setHold, setObject_objects, Function.update_apply]
  split
  · next hab => simpa [← hab] using h
  · exact h

/-- Only its deletion makes an object disappear. -/
theorem does_removes {w w' : VaultWorld} {l l' : VaultSession} {o : VaultOp}
    {x : VaultAns o} (h : does w l o x w' l') {a : Address}
    (hthere : w.objects a ≠ none) (hgone : w'.objects a = none) :
    o = .delete a := by
  have same : w' ≠ w := fun hw => hthere (hw ▸ hgone)
  cases o with
  | now => exact absurd h.2.1 same
  | uuid => exact absurd h.1 same
  | records _ => exact absurd h.2.1 same
  | hold _ => exact absurd h.2.1 same
  | exist _ => exact absurd h.2.1 same
  | flush _ => exact absurd h.2.1 same
  | edit _ _ => exact absurd h.1 same
  | commit =>
      have hw := h.2
      split at hw
      · rw [hw] at hgone
        exact absurd hgone hthere
      · exact absurd hw same
  | put up =>
      cases x with
      | ok result =>
          rw [h.2.2.1] at hgone
          exact absurd hgone (upload_keeps up hthere)
      | error e =>
          rcases h.1 with hw | ⟨-, hw⟩
          · exact absurd hw same
          · rw [hw] at hgone
            exact absurd hgone (upload_keeps up hthere)
  | get _ => exact absurd h.1 same
  | lockState _ => exact absurd h.1 same
  | setLegalHold b on =>
      cases x with
      | ok _ =>
          rw [h.2.1] at hgone
          exact absurd hgone (setHold_keeps on hthere)
      | error e =>
          rcases h.1 with hw | hw
          · exact absurd hw same
          · rw [hw] at hgone
            exact absurd hgone (setHold_keeps on hthere)
  | delete b =>
      have removed : w' = w.setObject b none := by
        cases x with
        | ok _ => exact h.1
        | error e => exact h.1.resolve_left same
      by_cases hab : a = b
      · rw [hab]
      · rw [removed, setObject_objects, Function.update_of_ne hab] at hgone
        exact absurd hgone hthere

theorem does_oneRecordEach {w w' : VaultWorld} {l l' : VaultSession}
    {o : VaultOp} {a : VaultAns o} (h : OneRecordEach w)
    (hd : does w l o a w' l') : OneRecordEach w' := by
  rcases does_db hd with ⟨hdb, -⟩ | ⟨-, hadmits, rfl⟩
  · rw [OneRecordEach, hdb]
    exact h
  · exact oneRecordEach_writes h hadmits

/-! ## A disposal among the others -/

section Disposal

variable {checks : PackageChecks} {s : VaultSettings} {w : VaultWorld}
  {l : VaultSession}

/-- The precondition of an operation, in this system. -/
abbrev Guarded {α : Type} (checks : PackageChecks) (s : VaultSettings)
    (Q : α → VaultWorld → VaultSession → Prop) (x : VaultM α) :
    VaultWorld → VaultSession → Prop :=
  Crew.safe (rules checks s) OneRecordEach Leaves Permitted Q x

/-- An operation that deletes nothing is safe. -/
theorem guarded_of_uses {α : Type} {x : VaultM α} (hx : x.run.Uses Spares) :
    Guarded checks s (fun _ _ _ => True) x w l := by
  refine Crew.swp_mono (Crew.swp_of_uses hx fun v m o ho a heq => ?_)
    fun _ _ _ _ _ _ => trivial
  rw [heq] at ho
  exact ho.elim

/-- The session has flushed nothing, and has the record from the table. -/
def Has (record : StoredPackage) (w : VaultWorld) (l : VaultSession) : Prop :=
  Recorded w.db record ∧ l.flushed = []

/-- The record may be disposed of. -/
def Cleared (record : StoredPackage) (w : VaultWorld) : Prop :=
  Recorded w.db record ∧
    coveringHoldClause record.clientId record.id w.db = false ∧
      record.retainUntil ≤ w.clock

theorem permitted_of_spares {o : VaultOp} (ho : Spares o) (w : VaultWorld)
    (l : VaultSession) : Permitted w l o := by
  intro a heq
  rw [heq] at ho
  exact ho.elim

theorem ask_guarded {o : VaultOp}
    {Q : VaultAns o → VaultWorld → VaultSession → Prop} (ho : Spares o)
    (h : ∀ v, Leaves o w v → ∀ a v' l', does v l o a v' l' → Q a v' l') :
    Guarded checks s Q (ask o) w l :=
  Crew.safe_ask fun v _ hr => ⟨permitted_of_spares ho v l, h v hr⟩

/-- The deletion of a cleared record's object stays permitted while it waits
for its turn. -/
theorem permitted_of_cleared {record : StoredPackage} {v : VaultWorld}
    {a : Address} (h : Cleared record w) (hb : record.backend = a.backend)
    (hp : record.packageId = a.key.packageId) (hone : OneRecordEach v)
    (hleaves : Leaves (.delete a) w v) (m : VaultSession) :
    Permitted v m (.delete a) := by
  obtain ⟨hrec, hcover, hretain⟩ := h
  intro a' heq r hr haddr
  obtain rfl := VaultOp.delete.inj heq
  obtain ⟨row, hrow, hrowEq⟩ := hleaves.records _ hrec
  have hsame : r.toStoredPackage = record := by
    rw [← hrowEq]
    refine hone r hr row hrow ?_ ?_
    · rw [show row.backend = record.backend by rw [← hrowEq], hb, ← haddr]
      rfl
    · rw [show row.packageId = record.packageId by rw [← hrowEq], hp, ← haddr]
      rfl
  rw [hsame]
  refine ⟨?_, hretain.trans hleaves.clock⟩
  rw [← Bool.not_eq_true]
  intro hnow
  have hthen := hleaves.holds a rfl record hrec (hsame ▸ haddr) hnow
  rw [hcover] at hthen
  exact absurd hthen (by decide)

theorem getRecord_guarded (recordId : String) :
    Guarded checks s (fun record => Has record.toStoredPackage)
      (getRecord recordId) w {} := by
  refine Crew.safe_bind (ask_guarded trivial fun v hr rows v' l' hd => ?_)
  obtain ⟨hrows, rfl, rfl⟩ := hd
  cases rows with
  | nil => exact Crew.safe_throw
  | cons record rest =>
      refine Crew.safe_pure ⟨?_, rfl⟩
      have hmem : record ∈ record :: rest := List.mem_cons_self
      rw [hrows] at hmem
      obtain ⟨row, hrow, rfl⟩ := List.mem_map.mp hmem
      exact ⟨row, (List.mem_filter.mp hrow).1, rfl⟩

theorem delete_guarded {vault : Vault} {record : VaultRecord}
    (h : Cleared record.toStoredPackage w) (hb : record.backend = vault.name) :
    Guarded checks s (fun _ _ _ => True) (vault.delete record) w l := by
  cases vault with
  | filesystem =>
      exact Crew.safe_ask fun v hv hr =>
        ⟨permitted_of_cleared h hb rfl hv hr l, fun _ _ _ _ => trivial⟩
  | s3 _ _ =>
      refine Crew.safe_bind ?_
      rw [Vault.versioned]
      split
      · exact Crew.safe_throw
      · exact Crew.safe_pure (Crew.safe_ask fun v hv hr =>
          ⟨permitted_of_cleared h hb rfl hv hr l, fun _ _ _ _ => trivial⟩)

/-- What a disposal that goes ahead has found. -/
theorem deletionDenial_none {record : VaultRecord} {held : Bool} {now : Int}
    (h : deletionDenial record held now = none) :
    held = false ∧ record.retainUntil ≤ now := by
  rw [deletionDenial] at h
  split at h
  · exact absurd h nofun
  · split at h
    · exact absurd h nofun
    · next hheld =>
        split at h
        · exact absurd h nofun
        · next hretain => exact ⟨by simpa using hheld, Int.not_lt.mp hretain⟩

theorem disposeRecord_guarded {vault : Vault} {record : VaultRecord}
    {email : String} (h : Has record.toStoredPackage w l)
    (hb : record.backend = vault.name) :
    Guarded checks s (fun _ _ _ => True) (disposeRecord vault record email)
      w l := by
  refine Crew.safe_bind (ask_guarded trivial fun v hr now v' l' hd => ?_)
  obtain ⟨hnow, rfl, rfl⟩ := hd
  refine Crew.safe_bind (ask_guarded trivial fun u hru held u' m hd => ?_)
  obtain ⟨hheld, rfl, rfl⟩ := hd
  have hrec : Recorded u'.db record.toStoredPackage :=
    hru.records _ (hr.records _ h.1)
  rw [show m.view u'.db = u'.db by rw [VaultSession.view, h.2]; rfl] at hheld
  split
  · exact Crew.safe_throw
  · next hnone =>
      obtain ⟨hfree, hretain⟩ := deletionDenial_none hnone
      have hcleared : Cleared record.toStoredPackage u' :=
        ⟨hrec, hheld ▸ hfree, hretain.trans (hnow ▸ hru.clock)⟩
      refine Crew.safe_bind (Crew.swp_mono (delete_guarded hcleared hb)
        fun r x y _ answer _ => guarded_of_uses ?_)
      split
      · exact Prog.uses_andThen (assign_uses _ _) fun _ => uses_pure
      · exact Prog.uses_andThen (assign_uses _ _) fun _ => uses_pure
      · exact Prog.uses_andThen (assign_uses _ _) fun _ => uses_refuse
      · exact uses_refuse
      · exact uses_refuse
      · exact uses_throw

theorem handler_guarded (request : VaultRequest) :
    Guarded checks s (fun _ _ _ => True) (request.handler checks s) w {} := by
  by_cases hdisposes : request.disposes = false
  · exact guarded_of_uses (handler_uses hdisposes)
  · cases request with
    | dispose vault recordId email =>
        refine Crew.safe_bind (Crew.swp_mono (getRecord_guarded recordId) ?_)
        intro r v m hr record heq
        refine Crew.safe_bind ?_
        rw [requireSameBackend]
        split
        · exact Crew.safe_throw
        · next hb =>
            refine Crew.safe_pure (Crew.safe_tryCatch ?_ fun e x y => ?_)
            · exact disposeRecord_guarded (hr record heq) (not_not.mp hb)
            · split
              · exact Crew.safe_pure trivial
              · exact Crew.safe_throw
    | _ => exact absurd rfl hdisposes

theorem program_guarded (request : VaultRequest) :
    Crew.swp (rules checks s) OneRecordEach Leaves Permitted
      (fun _ _ _ => True) (request.program checks s) w {} := by
  refine Crew.swp_bind.mpr (Crew.swp_mono (handler_guarded request) ?_)
  intro r v m _
  cases r with
  | ok _ =>
      exact Crew.swp_act.mpr fun x _ _ =>
        ⟨permitted_of_spares (o := .commit) trivial x m,
          fun _ _ _ _ => trivial⟩
  | error _ => exact trivial

end Disposal

/-! ## Runs -/

/-- No hold is committed on a record that another request is at the deletion
of: its hold check is behind it. -/
def Unraced (c : VaultCrew) (t : Nat) (o : VaultOp) : Prop :=
  o = .commit → ∀ l k, c.sessions t = some (l, .act o k) →
    ∀ hold, .addHold hold ∈ l.writes →
      ∀ u a, u ≠ t → c.Next u (.delete a) →
        ∀ r ∈ c.world.db.records, r.address = a →
          hold.covers r.clientId r.id = false

/-- What a step of one request leaves the others. -/
theorem leaves_of_act {checks : PackageChecks} {s : VaultSettings}
    (c : VaultCrew) (t : Nat) (l : VaultSession) (o : VaultOp)
    (k : VaultAns o → Prog VaultOp VaultAns Unit) (a : VaultAns o)
    (w' : VaultWorld) (l' : VaultSession)
    (hs : c.sessions t = some (l, .act o k)) (hmay : Unraced c t o)
    (hd : (rules checks s).does c.world l o a w' l') (u : Nat) (o' : VaultOp)
    (hne : u ≠ t) (hnext : c.Next u o') : Leaves o' c.world w' := by
  rcases does_db hd with ⟨hdb, hclock⟩ | ⟨rfl, -, rfl⟩
  · exact leaves_of_db hdb hclock.ge
  · refine ⟨le_refl _, fun r hr => recorded_writes _ hr, ?_⟩
    rintro b rfl r ⟨row, hrow, rfl⟩ haddr hcover
    rcases covering_writes hcover with hold | ⟨new, hmem, hcovers⟩
    · exact hold
    · have hnot := hmay rfl l k hs new hmem u b hne hnext row hrow haddr
      rw [hnot] at hcovers
      exact absurd hcovers (by decide)

/-- Every state of a run in which no hold overtakes a disposal. -/
theorem good_of_run {checks : PackageChecks} {s : VaultSettings} {clock : Int}
    {c : VaultCrew}
    (h : Crew.Run (rules checks s) Unraced { world := { clock } } c) :
    Crew.Good (rules checks s) OneRecordEach Leaves Permitted c := by
  refine Crew.good_run leaves_refl (fun _ _ _ _ => leaves_trans) ?_ ?_ ?_ ?_ ?_ h
  · exact fun w l o a w' l' hw hd => does_oneRecordEach hw hd
  · rintro w w' hw ⟨later, hle, rfl⟩
    exact ⟨hw, fun o => leaves_of_db rfl hle⟩
  · rintro w l p hw ⟨rfl, request, rfl⟩
    exact program_guarded request
  · intro c t l o k a w' l' _ hs hmay hd u o' hne hnext
    exact leaves_of_act c t l o k a w' l' hs hmay hd u o' hne hnext
  · refine ⟨?_, ?_⟩
    · intro r hr
      exact absurd hr List.not_mem_nil
    · intro t l p hp
      exact absurd hp nofun

/-- In the runs that `may` lets through, an object disappears only when no
hold covers its record and its retention is over. -/
def NotDeletedEarly (checks : PackageChecks) (s : VaultSettings)
    (may : VaultCrew → Nat → VaultOp → Prop) : Prop :=
  ∀ (clock : Int) (c c' : VaultCrew),
    Crew.Run (rules checks s) may { world := { clock } } c →
    Crew.Step (rules checks s) may c c' →
      ∀ a, c.world.objects a ≠ none → c'.world.objects a = none →
        ∀ r ∈ c.world.db.records, r.address = a →
          coveringHoldClause r.clientId r.id c.world.db = false ∧
            r.retainUntil ≤ c.world.clock

theorem notDeletedEarly_of_unraced (checks : PackageChecks)
    (s : VaultSettings) : NotDeletedEarly checks s Unraced := by
  intro clock c c' hrun hstep a hthere hgone
  have good := good_of_run hrun
  cases hstep with
  | start _ _ => exact absurd hgone hthere
  | act hs hmay hd =>
      obtain rfl := does_removes hd hthere hgone
      exact good.guard leaves_refl hs a rfl
  | leave => exact absurd hgone hthere
  | drift hd =>
      obtain ⟨later, -, rfl⟩ := hd
      exact absurd hgone hthere

/-! ## The storage hold after a reconciliation -/

/-- An unreleased hold covers the record, as the session sees the holds. -/
def UnderHold (record : VaultRecord) (w : VaultWorld) (l : VaultSession) :
    Prop :=
  coveringHoldClause record.clientId record.id (l.view w.db) = true

/-- Whenever the storage call of a `reconcile_hold` succeeds, and the record
is under a hold from its start to its end, the storage hold of its object is
on at the end, whatever else goes on meanwhile. -/
def HoldsApplied (checks : PackageChecks) (s : VaultSettings) : Prop :=
  ∀ (may : VaultCrew → Nat → VaultOp → Prop) (c c' : VaultCrew) (t : Nat)
    (vault : Vault) (record : VaultRecord)
    (k : Except VaultFault (Bool × VaultRecord) → Prog VaultOp VaultAns Unit)
    (l l' : VaultSession) (acts : List ((o : VaultOp) × VaultAns o))
    (r : Except VaultFault (Bool × VaultRecord)) (a : Address) (on : Bool),
    c.sessions t = some (l, (reconcileHold vault record).run >>= k) →
    UnderHold record c.world l →
    Crew.Calls (rules checks s) may VaultOp.awaits (UnderHold record) t k c l
      (reconcileHold vault record).run acts r c' l' →
    ⟨.setLegalHold a on, .ok ()⟩ ∈ acts →
      (record.backend = vault.name → a = record.address) ∧
        ∃ o, c'.world.objects a = some o ∧ o.legalHold = true

theorem run_ask_bind {α : Type} (o : VaultOp) (f : VaultAns o → VaultM α) :
    (ask o >>= f).run = .act o fun a => (f a).run := rfl

theorem run_assign_bind {α : Type} (record : VaultRecord) (e : RecordEdit)
    (f : VaultRecord → VaultM α) :
    (assign record e >>= f).run =
      .act (.edit record.id e) fun _ => (f (e.apply record)).run := rfl

theorem run_setLegalHold {record : VaultRecord} {v : Nat}
    (h : record.storageReceipt.versionId = some v) {α : Type}
    {folder mode : String} {on : Bool}
    (f : Except StorageError Unit → VaultM α) :
    ((Vault.s3 folder mode).setLegalHold record on >>= f).run =
      .act (.setLegalHold ⟨"s3", record.objectKey, some v⟩ on) fun answer =>
        (f answer).run := by
  rw [Vault.setLegalHold, Vault.versioned, h]
  rfl

theorem run_setLegalHold_none {record : VaultRecord}
    (h : record.storageReceipt.versionId = none) {α : Type}
    {folder mode : String} {on : Bool}
    (f : Except StorageError Unit → VaultM α) :
    ((Vault.s3 folder mode).setLegalHold record on >>= f).run =
      pure (.error (.keyError "version_id")) := by
  rw [Vault.setLegalHold, Vault.versioned, h]
  rfl

section Calls

variable {checks : PackageChecks} {s : VaultSettings}
  {may : VaultCrew → Nat → VaultOp → Prop}
  {K : VaultWorld → VaultSession → Prop}
  {t : Nat} {α : Type}
  {k : Except VaultFault α → Prog VaultOp VaultAns Unit}
  {c c' : VaultCrew} {l l' : VaultSession}
  {acts : List ((o : VaultOp) × VaultAns o)} {r : Except VaultFault α}

/-- An assignment at the end of a call moves neither the storage nor anyone
else. -/
theorem assign_last {record : VaultRecord} {e : RecordEdit}
    {f : VaultRecord → α}
    (h : Crew.Calls (rules checks s) may VaultOp.awaits K t k c l
      (assign record e >>= fun new => pure (f new)).run acts r c' l')
    (hc : K c.world l) :
    c'.world = c.world ∧ acts = [⟨.edit record.id e, ()⟩] := by
  rw [run_assign_bind] at h
  obtain ⟨d, a, w, m, rest, -, hd, hdoes, -, rfl, hrest⟩ := h.act_inv hc
  obtain ⟨rfl, rfl⟩ := hdoes
  obtain ⟨rfl, -, rfl, -⟩ := hrest.pure_inv
  rw [hd rfl]
  exact ⟨rfl, rfl⟩

/-- What follows the storage call touches nothing but the session. -/
theorem settleHold_calls {record : VaultRecord} {expected : Bool}
    {answer : Except StorageError Unit}
    {k : Except VaultFault (Bool × VaultRecord) → Prog VaultOp VaultAns Unit}
    {r : Except VaultFault (Bool × VaultRecord)}
    (h : Crew.Calls (rules checks s) may VaultOp.awaits K t k c l
      (settleHold record expected answer).run acts r c' l')
    (hc : K c.world l) :
    c'.world = c.world ∧
      ∀ a on x, (⟨.setLegalHold a on, x⟩ : (o : VaultOp) × VaultAns o) ∉ acts := by
  have assigned : ∀ {e} {f : VaultRecord → Bool × VaultRecord},
      Crew.Calls (rules checks s) may VaultOp.awaits K t k c l
        (assign record e >>= fun new => pure (f new)).run acts r c' l' →
      c'.world = c.world ∧ ∀ a on x,
        (⟨.setLegalHold a on, x⟩ : (o : VaultOp) × VaultAns o) ∉ acts := by
    intro e f hassign
    obtain ⟨hworld, rfl⟩ := assign_last hassign hc
    exact ⟨hworld, fun a on x hmem => absurd (List.mem_singleton.mp hmem) nofun⟩
  rw [settleHold.eq_def] at h
  split at h
  · exact assigned h
  · exact assigned h
  · exact assigned h
  · exact assigned h
  · cases h
    exact ⟨rfl, fun _ _ _ => List.not_mem_nil⟩

theorem setHold_on {w : VaultWorld} {a : Address} (h : w.objects a ≠ none) :
    ∃ o, (w.setHold a true).objects a = some o ∧ o.legalHold = true := by
  obtain ⟨o, ho⟩ := Option.ne_none_iff_exists'.mp h
  refine ⟨{ o with legalHold := true }, ?_, rfl⟩
  rw [VaultWorld.setHold, setObject_objects, Function.update_self, ho]
  rfl

end Calls

theorem holdsApplied (checks : PackageChecks) (s : VaultSettings) :
    HoldsApplied checks s := by
  intro may c c' t vault record k l l' acts r a on _ hunder hcalls hmem
  rw [reconcileHold] at hcalls
  split at hcalls
  · obtain ⟨rfl, -⟩ := hcalls.pure_inv
    exact absurd hmem List.not_mem_nil
  · next hlocks =>
      rw [holdActiveFor, run_ask_bind] at hcalls
      obtain ⟨d, expected, w, m, rest, hK, -, hdoes, hK', rfl, hrest⟩ :=
        hcalls.act_inv hunder
      obtain ⟨hexpected, rfl, rfl⟩ := hdoes
      have hon : expected = true := hexpected.trans hK
      have hlater := (List.mem_cons.mp hmem).resolve_left nofun
      subst hon
      split at hrest
      · obtain ⟨rfl, -⟩ := hrest.pure_inv
        exact absurd hlater List.not_mem_nil
      · cases vault with
        | filesystem => exact absurd rfl hlocks
        | s3 folder mode =>
            cases hversion : record.storageReceipt.versionId with
            | none =>
                rw [run_setLegalHold_none hversion] at hrest
                obtain ⟨rfl, -⟩ := hrest.pure_inv
                exact absurd hlater List.not_mem_nil
            | some v =>
                rw [run_setLegalHold hversion] at hrest
                obtain ⟨e, answer, w', m', rest', -, -, hset, hK', rfl, hend⟩ :=
                  hrest.act_inv hK'
                obtain ⟨hworld, hnone⟩ := settleHold_calls hend hK'
                have hcall := (List.mem_cons.mp hlater).resolve_right
                  (hnone a on _)
                cases hcall
                obtain ⟨hthere, rfl, rfl⟩ := hset
                rw [hworld]
                refine ⟨fun hb => ?_, setHold_on hthere⟩
                rw [StoredPackage.address, hb, hversion]
                rfl

/-- Evidence is kept as long as no hold overtakes a disposal, and a storage
hold is what a successful call of a reconciliation makes it. -/
theorem evidence_kept (checks : PackageChecks) (s : VaultSettings) :
    NotDeletedEarly checks s Unraced ∧ HoldsApplied checks s :=
  ⟨notDeletedEarly_of_unraced checks s, holdsApplied checks s⟩

/-! ### A hold that overtakes a disposal -/

/-- Every call succeeds where it can. -/
def healthy (w : VaultWorld) (l : VaultSession) :
    (o : VaultOp) → VaultAns o × VaultWorld × VaultSession
  | .now => (w.clock, w, l)
  | .uuid => ("3f", w, l)
  | .records q =>
    let rows := (q (l.view w.db)).map l.mapped
    (rows, w, { l with loaded := l.loaded ++ rows })
  | .hold q => (q (l.view w.db), w, l)
  | .exist q => (q (l.view w.db), w, l)
  | .flush x =>
    let ok := (l.view w.db).admits x
    (ok, w, if ok then { l with flushed := l.flushed ++ [x] } else l)
  | .edit id e =>
    ((), w, { l with
      loaded := l.loaded.map fun r => if r.id = id then e.apply r else r
      dirty := l.dirty ++ [.editRecord id e] })
  | .commit =>
    ((), if w.db.admitsAll l.writes then
        { w with db := l.writes.foldl VaultTables.write w.db }
      else w, { l with flushed := [], dirty := [] })
  | .put up =>
    if w.conflicts up then
      (.error (.conflict "different bytes already stored at this key"), w, l)
    else (.ok (w.putResult up), w.upload up, l)
  | .get a =>
    (match w.objects a with
      | some o => .ok o.content
      | none => .error (.missing "object not found"), w, l)
  | .lockState _ => (.error (.unavailable "s3 head_object failed"), w, l)
  | .setLegalHold a on =>
    if w.objects a = none then (.error (.missing "NoSuchVersion"), w, l)
    else (.ok (), w.setHold a on, l)
  | .delete a => (.ok (), w.setObject a none, l)

theorem healthy_lawful (checks : PackageChecks) (s : VaultSettings)
    (w : VaultWorld) (l : VaultSession) (o : VaultOp) :
    (rules checks s).does w l o (healthy w l o).1 (healthy w l o).2.1
      (healthy w l o).2.2 := by
  cases o with
  | now => exact ⟨rfl, rfl, rfl⟩
  | uuid => exact ⟨rfl, rfl⟩
  | records q => exact ⟨rfl, rfl, rfl⟩
  | hold q => exact ⟨rfl, rfl, rfl⟩
  | exist q => exact ⟨rfl, rfl, rfl⟩
  | flush x => exact ⟨rfl, rfl, rfl⟩
  | edit id e => exact ⟨rfl, rfl⟩
  | commit => exact ⟨rfl, rfl⟩
  | put up =>
      by_cases hconflict : w.conflicts up = true
      · simp only [healthy, hconflict, if_true]
        exact ⟨.inl rfl, rfl⟩
      · simp only [healthy, hconflict]
        exact ⟨by simpa using hconflict, rfl, rfl, rfl⟩
  | get a => exact ⟨rfl, rfl⟩
  | lockState a => exact ⟨rfl, rfl⟩
  | setLegalHold a on =>
      by_cases hnone : w.objects a = none
      · simp only [healthy, hnone, if_true]
        exact ⟨.inl rfl, rfl⟩
      · simp only [healthy, hnone, if_false]
        exact ⟨hnone, rfl, rfl⟩
  | delete a => exact ⟨rfl, rfl⟩

def sampleChecks : PackageChecks where
  sha256 _ := "00"
  receiptDigest _ := "11"
  verifySignedPackage _ := some "a7"

def healthyReplies : Crew.Replies (rules sampleChecks {}) where
  answer := healthy
  lawful := healthy_lawful sampleChecks {}

/-- A request that has begun in session `t`. -/
def VaultRequest.begin (request : VaultRequest) (t : Nat) (c : VaultCrew) :
    VaultCrew :=
  c.seat t (some ({}, request.program sampleChecks {}))

/-- A package is stored, and its retention runs out. -/
def expired : VaultCrew :=
  let stored := (List.replicate 8 1).foldl healthyReplies.turn
    ((VaultRequest.store .filesystem "c1" ⟨"a7", [80, 75]⟩ none).begin 1
      { world := { clock := 0 } })
  { stored with world := { stored.world with clock := 2556 * dayMicros } }

/-- A disposal has checked the holds. -/
def checked : VaultCrew :=
  [2, 2, 2].foldl healthyReplies.turn
    ((VaultRequest.dispose .filesystem "3f" "admin@example.org").begin 2 expired)

/-- A hold is placed on the tenant before the disposal deletes. -/
def overtaken : VaultCrew :=
  (List.replicate 6 3).foldl healthyReplies.turn
    ((VaultRequest.placeHold (some .filesystem) "c1" none "litigation"
      "admin@example.org").begin 3 checked)

def sampleAddress : Address := ⟨"filesystem", ⟨"c1", "a7"⟩, none⟩

theorem overtaken_deletes :
    (overtaken.world.objects sampleAddress).isSome = true ∧
      ((healthyReplies.turn overtaken 2).world.objects sampleAddress).isNone =
        true ∧
      overtaken.world.db.records.all (fun r =>
        r.address = sampleAddress ∧
          coveringHoldClause r.clientId r.id overtaken.world.db = true) = true ∧
      overtaken.world.db.records.length = 1 := by
  decide +kernel

section Sample

/-- Every action is considered. -/
def Anything (_ : VaultCrew) (_ : Nat) (_ : VaultOp) : Prop := True

theorem run_begin {c d : VaultCrew} {request : VaultRequest} {t : Nat}
    (h : Crew.Run (rules sampleChecks {}) Anything c d)
    (hfree : (d.sessions t).isNone = true) (ts : List Nat) :
    Crew.Run (rules sampleChecks {}) Anything c
      (ts.foldl healthyReplies.turn (request.begin t d)) :=
  (h.tail (.start (Option.isNone_iff_eq_none.mp hfree)
    ⟨rfl, request, rfl⟩)).trans
      (healthyReplies.run_turns (fun _ _ _ => trivial) _ ts)

theorem run_expired :
    Crew.Run (rules sampleChecks {}) Anything { world := { clock := 0 } }
      expired := by
  refine (run_begin .refl rfl _).tail (.drift ⟨2556 * dayMicros, ?_, rfl⟩)
  decide +kernel

theorem run_overtaken :
    Crew.Run (rules sampleChecks {}) Anything { world := { clock := 0 } }
      overtaken := by
  have hdisposal : (expired.sessions 2).isNone = true := by decide +kernel
  have hplace : (checked.sessions 3).isNone = true := by decide +kernel
  exact run_begin (run_begin run_expired hdisposal _) hplace _

/-- A disposal that has checked the holds deletes the package after a hold on
the tenant is committed. -/
theorem hold_overtakes_disposal :
    ¬ (NotDeletedEarly sampleChecks {} Anything ∧
      HoldsApplied sampleChecks {}) := by
  rintro ⟨hkept, -⟩
  obtain ⟨hthere, hgone, hcovered, hone⟩ := overtaken_deletes
  have hturn : Crew.Step (rules sampleChecks {}) Anything overtaken
      (healthyReplies.turn overtaken 2) ∨
        healthyReplies.turn overtaken 2 = overtaken :=
    healthyReplies.turn_step (fun _ _ _ => trivial) overtaken 2
  rcases hturn with hstep | hsame
  · obtain ⟨r, hr⟩ := List.length_eq_one_iff.mp hone
    have hmem : r ∈ overtaken.world.db.records :=
      hr ▸ List.mem_singleton_self r
    obtain ⟨haddr, hcover⟩ := of_decide_eq_true
      (List.all_eq_true.mp hcovered r hmem)
    have hfree := (hkept 0 overtaken _ run_overtaken hstep sampleAddress
      (Option.isSome_iff_ne_none.mp hthere)
      (Option.isNone_iff_eq_none.mp hgone) r hmem haddr).1
    rw [hcover] at hfree
    exact absurd hfree (by decide)
  · rw [hsame, Option.isNone_iff_eq_none] at hgone
    rw [hgone] at hthere
    exact absurd hthere (by decide)

end Sample

end NodeLink.Server.EvidenceVault
