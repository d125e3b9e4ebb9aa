import NodeLink.Lib.Hex
import NodeLink.Lib.Prog
import NodeLink.Server.Audit

/-!
# The audit chain verifies, and what it commits to

`verify_chain` accepts a table exactly when its rows, in sequence order, are
numbered from 1, linked by their hashes and of the sequenced schema from some
row on. Appending at the tail keeps that, so the invariant of the concurrent
system is that the rows the holder of the append lock sees verify, and that
no other transaction has rows of its own.

Two verified tables that end in the same hash agree on whatever the hashed
document holds, by the commitment theorem of hash chains and the injectivity
of the document's text. The columns the document leaves out are free.
-/

namespace NodeLink.Proofs

open Lib Server

/-! ## What the verifier accepts -/

section Verifier

variable {sha256Hex : Bytes → String}

/-- Rows numbered upwards from `n`. -/
def Numbered : Int → List AuditEvent → Prop
  | _, [] => True
  | n, e :: es => e.seq = some n ∧ Numbered (n + 1) es

/-- No legacy row behind a sequenced one. -/
def Cutover : Bool → List AuditEvent → Prop
  | _, [] => True
  | seen, e :: es => (e.hashSchema < hashSchemaSequenced → seen = false) ∧
      Cutover (seen || decide (hashSchemaSequenced ≤ e.hashSchema)) es

/-- Rows in sequence order that make a chain behind `prev`. -/
structure Verifies (sha256Hex : Bytes → String) (es : List AuditEvent)
    (prev : String) (n : Int) (seen : Bool) : Prop where
  numbered : Numbered n es
  linked : Linked AuditEvent.prevHash AuditEvent.eventHash (hashEvent sha256Hex)
    prev es
  cutover : Cutover seen es

theorem verifies_cons {e : AuditEvent} {es : List AuditEvent} {prev : String}
    {n : Int} {seen : Bool} :
    Verifies sha256Hex (e :: es) prev n seen ↔
      (e.seq = some n ∧ (e.hashSchema < hashSchemaSequenced → seen = false) ∧
        e.prevHash = prev ∧ e.eventHash = hashEvent sha256Hex e) ∧
      Verifies sha256Hex es e.eventHash (n + 1)
        (seen || decide (hashSchemaSequenced ≤ e.hashSchema)) := by
  constructor
  · intro h
    exact ⟨⟨h.numbered.1, h.cutover.1, h.linked.1, h.linked.2.1⟩,
      h.numbered.2, h.linked.2.2, h.cutover.2⟩
  · intro ⟨⟨hseq, hschema, hprev, hhash⟩, h⟩
    exact ⟨⟨hseq, h.numbered⟩, ⟨hprev, hhash, h.linked⟩, hschema, h.cutover⟩

/-- The loop finds nothing exactly in a chain. -/
theorem verifyLoop_eq_none {es : List AuditEvent} {prev : String} {n : Int}
    {seen : Bool} :
    verifyLoop sha256Hex es prev n seen = none ↔
      Verifies sha256Hex es prev n seen := by
  induction es generalizing prev n seen with
  | nil => exact ⟨fun _ => ⟨trivial, trivial, trivial⟩, fun _ => rfl⟩
  | cons e es ih =>
      rw [verifyLoop, verifies_cons]
      by_cases hseq : e.seq = some n
      · rw [if_neg (not_not.mpr hseq)]
        by_cases hschema : e.hashSchema < hashSchemaSequenced ∧ seen = true
        · rw [if_pos hschema]
          refine ⟨nofun, fun h => ?_⟩
          have := h.1.2.1 hschema.1
          rw [hschema.2] at this
          cases this
        · rw [if_neg hschema]
          have hseen : e.hashSchema < hashSchemaSequenced → seen = false :=
            fun hlt => Bool.eq_false_iff.mpr fun h => hschema ⟨hlt, h⟩
          by_cases hprev : e.prevHash = prev
          · rw [if_neg (not_not.mpr hprev)]
            by_cases hhash : hashEvent sha256Hex e = e.eventHash
            · rw [if_neg (not_not.mpr hhash), ih]
              exact ⟨fun h => ⟨⟨hseq, hseen, hprev, hhash.symm⟩, h⟩, And.right⟩
            · rw [if_pos hhash]
              exact ⟨nofun, fun h => absurd h.1.2.2.2.symm hhash⟩
          · rw [if_pos hprev]
            exact ⟨nofun, fun h => absurd h.1.2.2.1 hprev⟩
      · rw [if_pos hseq]
        exact ⟨nofun, fun h => absurd h.1.1 hseq⟩

theorem numbered_concat {n : Int} {es : List AuditEvent} {e : AuditEvent} :
    Numbered n (es ++ [e]) ↔ Numbered n es ∧ e.seq = some (n + es.length) := by
  induction es generalizing n with
  | nil => simp [Numbered]
  | cons a es ih =>
      have hlen : n + 1 + (es.length : Int) = n + ((a :: es).length : Int) := by
        simp only [List.length_cons]
        omega
      rw [List.cons_append, Numbered, Numbered, ih, hlen, and_assoc]

theorem cutover_concat {seen : Bool} {es : List AuditEvent} {e : AuditEvent}
    (he : hashSchemaSequenced ≤ e.hashSchema) :
    Cutover seen (es ++ [e]) ↔ Cutover seen es := by
  induction es generalizing seen with
  | nil =>
      simp only [List.nil_append, Cutover, and_true]
      exact ⟨fun _ => trivial, fun _ hlt => absurd hlt (by omega)⟩
  | cons a es ih => rw [List.cons_append, Cutover, Cutover, ih]

/-- A chain grows at its end. -/
theorem Verifies.concat {es : List AuditEvent} {e : AuditEvent}
    (h : Verifies sha256Hex es genesis 1 false)
    (hseq : e.seq = some ((es.length : Int) + 1))
    (hschema : hashSchemaSequenced ≤ e.hashSchema)
    (hprev : e.prevHash = tip AuditEvent.eventHash genesis es)
    (hhash : e.eventHash = hashEvent sha256Hex e) :
    Verifies sha256Hex (es ++ [e]) genesis 1 false := by
  refine ⟨numbered_concat.mpr ⟨h.numbered, ?_⟩,
    linked_concat.mpr ⟨h.linked, hprev, hhash⟩,
    (cutover_concat hschema).mpr h.cutover⟩
  rw [hseq, Int.add_comm]

/-- The sequence number of a row says where it stands. -/
theorem Numbered.bounds {n : Int} {es : List AuditEvent} (h : Numbered n es)
    {e : AuditEvent} (he : e ∈ es) :
    ∃ i, e.seq = some i ∧ n ≤ i ∧ i < n + es.length := by
  induction es generalizing n with
  | nil => cases he
  | cons a es ih =>
      rcases List.mem_cons.mp he with rfl | he
      · exact ⟨n, h.1, le_rfl, by simp only [List.length_cons]; omega⟩
      · obtain ⟨i, hi, hle, hlt⟩ := ih h.2 he
        exact ⟨i, hi, by omega, by simp only [List.length_cons]; omega⟩

/-- Up to some sequence number, a chain is a chain. -/
theorem Verifies.through {es : List AuditEvent} {prev : String} {n : Int}
    {seen : Bool} (h : Verifies sha256Hex es prev n seen) (m : Int) :
    Verifies sha256Hex (es.filter fun e => e.seq.any (· ≤ m)) prev n seen := by
  induction es generalizing prev n seen with
  | nil => exact h
  | cons e es ih =>
      obtain ⟨hhead, htail⟩ := verifies_cons.mp h
      by_cases hle : n ≤ m
      · rw [List.filter_cons_of_pos (by simp [hhead.1, hle])]
        exact verifies_cons.mpr ⟨hhead, ih htail⟩
      · have hnil : (e :: es).filter (fun e => e.seq.any (· ≤ m)) = [] := by
          rw [List.filter_eq_nil_iff]
          intro a ha
          obtain ⟨i, hi, hni, -⟩ := h.numbered.bounds ha
          simp only [hi, Option.any_some, decide_eq_true_eq]
          omega
        rw [hnil]
        exact ⟨trivial, trivial, trivial⟩

end Verifier

/-! ## Tables in sequence order -/

section Sorting

theorem seqLe_some {a b : AuditEvent} {i j : Int} (ha : a.seq = some i)
    (hb : b.seq = some j) : seqLe a b ↔ i ≤ j := by
  unfold seqLe
  rw [ha, hb]

theorem seqLe_total (a b : AuditEvent) : seqLe a b ∨ seqLe b a := by
  unfold seqLe
  cases a.seq with
  | none => cases b.seq <;> simp
  | some i =>
      cases b.seq with
      | none => simp
      | some j => exact le_total i j

theorem seqLe_trans (a b c : AuditEvent) (hab : seqLe a b) (hbc : seqLe b c) :
    seqLe a c := by
  unfold seqLe at *
  cases ha : a.seq with
  | none =>
      cases hb : b.seq with
      | none => rw [hb] at hbc; exact hbc
      | some j => rw [ha, hb] at hab; exact hab.elim
  | some i =>
      cases hc : c.seq with
      | none => trivial
      | some k =>
          cases hb : b.seq with
          | none => rw [hb, hc] at hbc; exact hbc.elim
          | some j =>
              rw [ha, hb] at hab
              rw [hb, hc] at hbc
              exact le_trans hab hbc

instance : Std.Total seqGe := ⟨fun a b => seqLe_total b a⟩

instance : IsTrans AuditEvent seqGe := ⟨fun a b c hab hbc => seqLe_trans c b a hbc hab⟩

/-- A row behind all others in sequence is sorted to the end. -/
theorem orderedInsert_last {e : AuditEvent} {es : List AuditEvent}
    (h : ∀ a ∈ es, ¬ seqLe e a) : es.orderedInsert seqLe e = es ++ [e] := by
  induction es with
  | nil => rfl
  | cons a es ih =>
      rw [List.orderedInsert_cons, if_neg (h a List.mem_cons_self),
        ih (fun b hb => h b (List.mem_cons_of_mem _ hb))]
      rfl

theorem sorted_cons {e : AuditEvent} {rows : List AuditEvent}
    (h : Numbered 1 (rows.insertionSort seqLe))
    (hseq : e.seq = some ((rows.length : Int) + 1)) :
    (e :: rows).insertionSort seqLe = rows.insertionSort seqLe ++ [e] := by
  rw [List.insertionSort_cons]
  refine orderedInsert_last fun a ha hle => ?_
  obtain ⟨i, hi, -, hlt⟩ := h.bounds ha
  rw [seqLe_some hseq hi] at hle
  rw [List.length_insertionSort] at hlt
  omega

/-- In a numbered list a row is found by its number. -/
theorem Numbered.eq_of_seq {n : Int} {es : List AuditEvent} (h : Numbered n es)
    {a b : AuditEvent} (ha : a ∈ es) (hb : b ∈ es) (hab : a.seq = b.seq) :
    a = b := by
  induction es generalizing n with
  | nil => cases ha
  | cons e es ih =>
      have hne : ∀ x ∈ es, x.seq ≠ e.seq := by
        intro x hx heq
        obtain ⟨i, hi, hni, -⟩ := h.2.bounds hx
        rw [hi, h.1] at heq
        have := Option.some.inj heq
        omega
      rcases List.mem_cons.mp ha with hae | haes
      · rcases List.mem_cons.mp hb with hbe | hbes
        · rw [hae, hbe]
        · exact absurd (hae ▸ hab.symm) (hne b hbes)
      · rcases List.mem_cons.mp hb with hbe | hbes
        · exact absurd (hbe ▸ hab) (hne a haes)
        · exact ih h.2 haes hbes

/-- The tail that is read is the end of the chain. -/
theorem chainTail_eq {rows : List AuditEvent}
    (h : Numbered 1 (rows.insertionSort seqLe)) :
    chainTail rows = (tip AuditEvent.eventHash genesis (rows.insertionSort seqLe),
      (rows.length : Int)) := by
  have hlen : (rows.insertionSort seqLe).length = rows.length :=
    List.length_insertionSort ..
  rw [chainTail]
  cases hdesc : rows.insertionSort seqGe with
  | nil =>
      have hnil : rows = [] := by
        have := List.length_insertionSort (r := seqGe) (l := rows)
        rw [hdesc] at this
        exact List.length_eq_zero_iff.mp this.symm
      rw [hnil]
      rfl
  | cons e es =>
      have hmem : ∀ a, a ∈ e :: es ↔ a ∈ rows := by
        intro a
        rw [← hdesc, List.mem_insertionSort]
      have hsorted := List.pairwise_insertionSort (r := seqGe) rows
      rw [hdesc, List.pairwise_cons] at hsorted
      rcases List.eq_nil_or_concat (rows.insertionSort seqLe) with hnil | ⟨as, b, hasc⟩
      · have := (List.mem_insertionSort (r := seqLe)).mpr
          ((hmem e).mp List.mem_cons_self)
        rw [hnil] at this
        cases this
      · rw [List.concat_eq_append] at hasc
        rw [hasc] at h hlen
        have hb := (numbered_concat.mp h).2
        have heasc : e ∈ as ++ [b] := by
          rw [← hasc, List.mem_insertionSort, ← hmem]
          exact List.mem_cons_self
        have hbdesc : b ∈ e :: es := by
          rw [hmem, ← List.mem_insertionSort (r := seqLe), hasc]
          simp
        obtain ⟨i, hi, -, hlt⟩ := h.bounds heasc
        have heq : e = b := by
          rcases List.mem_cons.mp hbdesc with rfl | hbes
          · rfl
          · have hge : seqLe b e := hsorted.1 b hbes
            rw [seqLe_some hb hi] at hge
            refine h.eq_of_seq heasc (by simp) ?_
            rw [hi, hb, Option.some.injEq]
            simp only [List.length_append, List.length_cons, List.length_nil]
              at hlt hlen
            push_cast at hlt
            omega
        rw [hasc, tip_concat, heq]
        simp only [List.head?_cons, hb, Option.getD_some, Prod.mk.injEq, true_and]
        simp only [List.length_append, List.length_cons, List.length_nil] at hlen
        omega

end Sorting

/-! ## Appending under the lock -/

section Appending

variable (sha256Hex : Bytes → String)

/-- A table that verifies. -/
def Sound (rows : List AuditEvent) : Prop :=
  Verifies sha256Hex (rows.insertionSort seqLe) genesis 1 false

variable {sha256Hex} {isoformat : Int → String}

theorem sound_iff {rows : List AuditEvent} :
    Sound sha256Hex rows ↔ (verifyChain sha256Hex rows none).1 = true := by
  have hall : eventsThrough none rows = rows.insertionSort seqLe :=
    List.filter_true _
  rw [Sound, ← verifyLoop_eq_none, verifyChain, hall]
  cases verifyLoop sha256Hex (rows.insertionSort seqLe) genesis 1 false <;> simp

/-- The row `record` adds at the tail it has read keeps the table sound. -/
theorem Sound.append {rows : List AuditEvent} (h : Sound sha256Hex rows)
    (entry : AuditEntry) (id : String) (ts : Int) {prev : String} {prevSeq : Int}
    (htail : (prev, prevSeq) = chainTail rows) :
    Sound sha256Hex (entry.event sha256Hex isoformat id ts prev prevSeq :: rows) := by
  rw [chainTail_eq h.numbered, Prod.mk.injEq] at htail
  obtain ⟨hprev, hseq⟩ := htail
  have hlen : (rows.insertionSort seqLe).length = rows.length :=
    List.length_insertionSort ..
  have hseq' : (entry.event sha256Hex isoformat id ts prev prevSeq).seq =
      some ((rows.length : Int) + 1) := congrArg (fun n => some (n + 1)) hseq
  rw [Sound, sorted_cons h.numbered hseq']
  exact h.concat (by rw [hseq', hlen]) le_rfl hprev rfl

/-- The invariant of the system: only the holder of the lock has rows of its
own, and the table it sees is sound. -/
structure Serialized (sha256Hex : Bytes → String) (db : AuditDB) : Prop where
  base : Sound sha256Hex db.committed
  others : ∀ t, db.lock ≠ some t → db.txns t = {}
  holder : ∀ t, db.lock = some t → Sound sha256Hex (db.visible t)
  read : ∀ t entry prev prevSeq,
    (db.txns t).stage = .tailRead entry prev prevSeq →
      (prev, prevSeq) = chainTail (db.visible t)

theorem serialized_start {base : List AuditEvent} (h : Sound sha256Hex base) :
    Serialized sha256Hex { committed := base } :=
  ⟨h, fun _ _ => rfl, nofun, nofun⟩

theorem Serialized.visible_sound {db : AuditDB} (h : Serialized sha256Hex db)
    (t : Nat) : Sound sha256Hex (db.visible t) := by
  by_cases hlock : db.lock = some t
  · exact h.holder t hlock
  · rw [AuditDB.visible, h.others t hlock]
    exact h.base

/-- A transaction in the middle of `record` holds the lock. -/
theorem Serialized.locked {db : AuditDB} (h : Serialized sha256Hex db) {t : Nat}
    (hstage : (db.txns t).stage ≠ .idle) : db.lock = some t := by
  by_contra hlock
  rw [h.others t hlock] at hstage
  exact hstage rfl

/-- A step of the holder that changes its own transaction only. -/
theorem Serialized.setTxn {db : AuditDB} (h : Serialized sha256Hex db) {t : Nat}
    {txn : AuditTxn} (hlock : db.lock = some t)
    (hsound : Sound sha256Hex (txn.pending ++ db.committed))
    (hread : ∀ entry prev prevSeq, txn.stage = .tailRead entry prev prevSeq →
      (prev, prevSeq) = chainTail (txn.pending ++ db.committed)) :
    Serialized sha256Hex (db.setTxn t txn) := by
  have hother : ∀ u, u ≠ t → (db.setTxn t txn).txns u = db.txns u :=
    fun u hu => Function.update_of_ne hu ..
  have hself : (db.setTxn t txn).txns t = txn := Function.update_self ..
  refine ⟨h.base, ?_, ?_, ?_⟩
  · intro u hu
    have hne : u ≠ t := fun hut => hu (hut ▸ hlock)
    rw [hother u hne]
    exact h.others u hu
  · intro u hu
    obtain rfl : t = u := Option.some.inj (hlock.symm.trans hu)
    rw [AuditDB.visible, hself]
    exact hsound
  · intro u entry prev prevSeq hstage
    by_cases hut : u = t
    · subst hut
      rw [hself] at hstage
      rw [AuditDB.visible, hself]
      exact hread _ _ _ hstage
    · rw [hother u hut] at hstage
      rw [AuditDB.visible, hother u hut]
      exact h.read u entry prev prevSeq hstage

/-- Ending a transaction with what it saw, or with what it found. -/
theorem Serialized.close {db : AuditDB} (h : Serialized sha256Hex db) (t : Nat)
    {rows : List AuditEvent} (hsound : Sound sha256Hex rows)
    (hrows : db.lock ≠ some t → rows = db.committed) :
    Serialized sha256Hex { db.close t with committed := rows } := by
  have hother : ∀ u, u ≠ t → (db.close t).txns u = db.txns u :=
    fun u hu => Function.update_of_ne hu ..
  have hself : (db.close t).txns t = {} := Function.update_self ..
  by_cases hlock : db.lock = some t
  · have hfree : (db.close t).lock = none := if_pos hlock
    have hempty : ∀ u, (db.close t).txns u = {} := by
      intro u
      by_cases hut : u = t
      · rw [hut, hself]
      · rw [hother u hut]
        exact h.others u fun hu => hut (Option.some.inj (hu.symm.trans hlock))
    refine ⟨hsound, fun u _ => hempty u, ?_, ?_⟩
    · intro u hu
      rw [show (db.close t).lock = some u from hu] at hfree
      cases hfree
    · intro u entry prev prevSeq hstage
      rw [show (db.close t).txns u = {} from hempty u] at hstage
      cases hstage
  · have hsame : (db.close t).lock = db.lock := if_neg hlock
    have htxns : ∀ u, (db.close t).txns u = db.txns u := by
      intro u
      by_cases hut : u = t
      · rw [hut, hself, h.others t hlock]
      · exact hother u hut
    rw [hrows hlock]
    refine ⟨h.base, ?_, ?_, ?_⟩
    · intro u hu
      rw [show _ = db.txns u from htxns u]
      exact h.others u (hsame ▸ hu)
    · intro u hu
      rw [AuditDB.visible, show _ = db.txns u from htxns u]
      exact h.holder u (hsame ▸ hu)
    · intro u entry prev prevSeq hstage
      rw [show _ = db.txns u from htxns u] at hstage
      rw [AuditDB.visible, show _ = db.txns u from htxns u]
      exact h.read u entry prev prevSeq hstage

theorem serialized_step {entries : AuditEntry → Prop} {db db' : AuditDB}
    (h : Serialized sha256Hex db)
    (hs : AuditStep sha256Hex isoformat entries db db') :
    Serialized sha256Hex db' := by
  cases hs with
  | @lock t entry hidle hentry hfree =>
      have hothers : ∀ u, u ≠ t → db.txns u = {} := by
        intro u hut
        refine h.others u fun hu => ?_
        rcases hfree with hfree | hfree
        · rw [hfree] at hu
          cases hu
        · exact hut (Option.some.inj (hu.symm.trans hfree))
      have hlocked : Serialized sha256Hex { db with lock := some t } := by
        refine ⟨h.base, ?_, ?_, h.read⟩
        · intro u hu
          exact hothers u fun hut => hu (hut ▸ rfl)
        · intro u hu
          obtain rfl : t = u := Option.some.inj hu
          exact h.visible_sound t
      exact hlocked.setTxn rfl (h.visible_sound t) nofun
  | @readTail t entry hstage =>
      have hlock := h.locked (t := t) (by rw [hstage]; nofun)
      refine h.setTxn hlock (h.visible_sound t) ?_
      intro entry' prev prevSeq heq
      injection heq with _ hprev hseq
      rw [← hprev, ← hseq]
      rfl
  | @flush t entry prev prevSeq id ts hread hunique =>
      have hlock := h.locked (t := t) (by rw [hread]; nofun)
      exact h.setTxn hlock ((h.visible_sound t).append entry id ts
        (h.read t entry prev prevSeq hread)) nofun
  | @commit t hidle =>
      refine h.close t (h.visible_sound t) fun hlock => ?_
      rw [AuditDB.visible, h.others t hlock]
      rfl
  | @rollback t => exact h.close t h.base fun _ => rfl

end Appending

/-! ## Committed chains verify -/

section Committed

variable {sha256Hex : Bytes → String} {isoformat : Int → String}
  (schemas : String → Option AuditDetailSchema)
  (redactScalarStr : String → String)

/-- The entries `record` accepts: their detail is what the redaction boundary
returned for it. -/
def Sanitized (sha256Hex : Bytes → String) (entry : AuditEntry) : Prop :=
  ∃ detail, sanitizeAuditDetail schemas redactScalarStr sha256Hex entry.action
    detail = .ok entry.detail

/-- A row as the database returns it. -/
def rereadEvent (reread : StoredJson → StoredJson) (e : AuditEvent) :
    AuditEvent := { e with detail := reread e.detail }

theorem sameValue_document {e : AuditEvent} {d : StoredJson}
    (h : SameValue d e.detail) :
    SameValue { e with detail := d }.document e.document :=
  h.replace [("prev_hash", .str e.prevHash), ("ts", .str e.tsIso),
    ("actor", .str e.actor), ("action", .str e.action),
    ("agent_id", jsonString e.agentID)] _ "detail"

theorem hashEvent_reread {reread : StoredJson → StoredJson}
    (hre : ∀ d, SameValue (reread d) d) (e : AuditEvent) :
    hashEvent sha256Hex (rereadEvent reread e) = hashEvent sha256Hex e := by
  have h := dumpsSorted_eq_iff.mpr (sameValue_document (e := e) (hre e.detail))
  exact congrArg (fun text => sha256Hex (utf8 text)) h

theorem Verifies.reread {reread : StoredJson → StoredJson}
    (hre : ∀ d, SameValue (reread d) d) {es : List AuditEvent} {prev : String}
    {n : Int} {seen : Bool} (h : Verifies sha256Hex es prev n seen) :
    Verifies sha256Hex (es.map (rereadEvent reread)) prev n seen := by
  induction es generalizing prev n seen with
  | nil => exact h
  | cons e es ih =>
      obtain ⟨⟨hseq, hschema, hprev, hhash⟩, htail⟩ := verifies_cons.mp h
      refine verifies_cons.mpr ⟨⟨hseq, hschema, hprev, ?_⟩, ih htail⟩
      rw [hashEvent_reread hre]
      exact hhash

theorem Numbered.map_seq {n : Int} {es : List AuditEvent} (h : Numbered n es) :
    es.map AuditEvent.seq =
      (List.range es.length).map fun i : Nat => some (n + (i : Int)) := by
  induction es generalizing n with
  | nil => rfl
  | cons e es ih =>
      rw [List.map_cons, ih h.2, List.length_cons, List.range_succ_eq_map,
        List.map_cons, List.map_map, h.1]
      congr 1
      · simp
      · refine List.map_congr_left fun i _ => ?_
        rw [Function.comp_apply, Option.some.injEq]
        omega

theorem Linked.isChain {digest : AuditEvent → String} {prev : String}
    {es : List AuditEvent}
    (h : Linked AuditEvent.prevHash AuditEvent.eventHash digest prev es) :
    es.IsChain fun a b => b.prevHash = a.eventHash := by
  induction es generalizing prev with
  | nil => exact .nil
  | cons e es ih =>
      have htail := ih h.2.2
      cases es with
      | nil => exact .singleton e
      | cons f fs => exact htail.cons_cons h.2.2.1

/-- Concurrent appends keep a verifiable chain: whatever transactions do, the
committed rows are numbered from 1, each names its predecessor's hash, and
the verifier accepts them, read back and up to any sequence number. -/
theorem auditRun_verifies {reread : StoredJson → StoredJson}
    (hre : ∀ d, SameValue (reread d) d) {base : List AuditEvent}
    (hbase : (verifyChain sha256Hex base none).1 = true) {db : AuditDB}
    (hr : AuditRun sha256Hex isoformat
      (Sanitized schemas redactScalarStr sha256Hex) { committed := base } db) :
    ((db.committed.insertionSort seqLe).map AuditEvent.seq =
        (List.range db.committed.length).map fun i : Nat => some (1 + (i : Int))) ∧
      (db.committed.insertionSort seqLe).IsChain
        (fun a b => b.prevHash = a.eventHash) ∧
      ∀ throughSeq, verifyChain sha256Hex
        (db.committed.map (rereadEvent reread)) throughSeq = (true, none) := by
  have hser : Serialized sha256Hex db :=
    invariant_of_steps (I := Serialized sha256Hex)
      (fun _ _ h hs => serialized_step h hs)
      (serialized_start (sound_iff.mpr hbase)) hr
  have hsound := hser.base
  refine ⟨?_, Linked.isChain hsound.linked, fun throughSeq => ?_⟩
  · rw [hsound.numbered.map_seq, List.length_insertionSort]
  · have hmap : (db.committed.map (rereadEvent reread)).insertionSort seqLe =
        (db.committed.insertionSort seqLe).map (rereadEvent reread) :=
      (List.map_insertionSort seqLe seqLe (rereadEvent reread) db.committed
        fun _ _ _ _ => Iff.rfl).symm
    have hchain := hsound.reread hre
    have hthrough : Verifies sha256Hex (eventsThrough throughSeq
        (db.committed.map (rereadEvent reread))) genesis 1 false := by
      rw [eventsThrough, hmap]
      cases throughSeq with
      | none => rw [List.filter_true]; exact hchain
      | some m => exact hchain.through m
    rw [verifyChain, verifyLoop_eq_none.mpr hthrough]

/-! ## A chain of revocations -/

/-- The 32 bytes of a number, highest first. -/
def bigEndian (n : Nat) : Bytes :=
  (List.range 32).map fun i => UInt8.ofNat (n >>> (8 * (31 - i)))

/-- The start of 1970, and a second later. -/
def sampleIso (ts : Int) : String :=
  if ts = 0 then "1970-01-01T00:00:00+00:00" else "1970-01-01T00:00:01+00:00"

/-- An administrator revokes an operator's tokens. -/
def revocation (operator : String) : AuditEntry where
  action := "operator.tokens_revoked"
  actor := "admin@example"
  detail := .obj [("by", .str "admin"), ("operator_id", .str operator)]

/-- The row of a revocation, its digest given. -/
def revocationRow (operator id : String) (ts : Int) (prev : String)
    (prevSeq : Int) (digest : Bytes) : AuditEvent :=
  { (revocation operator).unhashed sampleIso id ts prev prevSeq with
    eventHash := toHex digest }

def firstDigest : Bytes := bigEndian
  0x628f1bb1cb0b55f79854f3be661c09a1dcf69cd5f964b1b96215db28865226e0

def secondDigest : Bytes := bigEndian
  0xc33fba197ef773d1807a65a667b1649695f584d1da65feee5dcb4035fa5516dc

def thirdDigest : Bytes := bigEndian
  0x0ce738015d9489456bb498af26fd5708c89bb9b4eccab439492673ec06cff24d

def fourthDigest : Bytes := bigEndian
  0x9bb043eeaaac05890336b9719fc6ad0b4ea1bc77d51c50724e3f955c7a288d7e

def lostDigest : Bytes := bigEndian
  0xe9d7f6c053d63346201605398d1aeead207b0b82fed1dd3b6ef1c1b76c95330f

def lostNextDigest : Bytes := bigEndian
  0xd6ed5dfc4dd7360624c493e03716acb1c4904014d1c76d81a76420086eadf8c6

def firstRow : AuditEvent :=
  revocationRow "op-1" "e-1" 0 genesis 0 firstDigest

def secondRow : AuditEvent :=
  revocationRow "op-2" "e-2" 0 (toHex firstDigest) 1 secondDigest

def thirdRow : AuditEvent :=
  revocationRow "op-3" "e-3" 1000000 (toHex secondDigest) 2 thirdDigest

def fourthRow : AuditEvent :=
  revocationRow "op-4" "e-4" 1000000 (toHex thirdDigest) 3 fourthDigest

/-- Two rows of a transaction that does not commit. -/
def lostRow : AuditEvent :=
  revocationRow "op-5" "x-1" 0 genesis 0 lostDigest

def lostNextRow : AuditEvent :=
  revocationRow "op-6" "x-2" 0 (toHex lostDigest) 1 lostNextDigest

/-- The digest of the first two digests. -/
def nodeDigest : Bytes := bigEndian
  0xcecfacf1989ed2567e44fa9368965a5bb16fba46025819838be6575158955973

/-- The digest of that one and the third. -/
def rootDigest : Bytes := bigEndian
  0x0fa22e4c5d19decff19b7cafa317304d2d087cf58dca86b541c66775a3e70dd0

/-- What is hashed in the samples, and its SHA-256. -/
def recordedDigests : List (Bytes × Bytes) :=
  [(firstRow.blob, firstDigest), (secondRow.blob, secondDigest),
    (thirdRow.blob, thirdDigest), (fourthRow.blob, fourthDigest),
    (lostRow.blob, lostDigest), (lostNextRow.blob, lostNextDigest),
    (firstDigest ++ secondDigest, nodeDigest),
    (nodeDigest ++ thirdDigest, rootDigest)]

/-- SHA-256 on what is recorded. -/
def recordedSha256 (data : Bytes) : Bytes :=
  (recordedDigests.lookup data).getD (bigEndian 0)

def recordedHex (data : Bytes) : String := toHex (recordedSha256 data)

theorem recordedSha256_eq :
    ∀ p ∈ recordedDigests, recordedSha256 p.1 = p.2 := by
  decide +kernel

/-- The digest in a place of the record. -/
theorem recordedSha256_get (i : Fin 8) :
    recordedSha256 (recordedDigests.get i).1 = (recordedDigests.get i).2 :=
  recordedSha256_eq _ (List.get_mem recordedDigests i)

theorem length_recordedSha256 (data : Bytes) :
    (recordedSha256 data).length = 32 := by
  have hdigests : ∀ p ∈ recordedDigests, p.2.length = 32 := by decide
  rw [recordedSha256]
  cases hlookup : recordedDigests.lookup data with
  | none => rfl
  | some digest =>
      obtain ⟨front, back, hsplit, -⟩ := List.lookup_eq_some_iff.mp hlookup
      refine hdigests (data, digest) ?_
      rw [hsplit]
      exact List.mem_append_right _ List.mem_cons_self

theorem recordedSha256_inj {a b : Bytes}
    (ha : a ∈ recordedDigests.map Prod.fst)
    (hb : b ∈ recordedDigests.map Prod.fst)
    (h : recordedSha256 a = recordedSha256 b) : a = b := by
  have hdigests : (recordedDigests.map Prod.snd).Nodup := by decide
  have hmap : (recordedDigests.map Prod.fst).map recordedSha256 =
      recordedDigests.map Prod.snd := by
    rw [List.map_map]
    exact List.map_congr_left recordedSha256_eq
  rw [← hmap] at hdigests
  exact List.inj_on_of_nodup_map hdigests ha hb h

/-- A row that is filed under another organization. -/
def refiled (organization : Option String) (e : AuditEvent) : AuditEvent :=
  { e with organizationID := organization }

def revocationRows : List AuditEvent := [firstRow, secondRow, thirdRow, fourthRow]

theorem revocations_verify (organization : Option String) :
    Verifies recordedHex (revocationRows.map (refiled organization)) genesis 1
      false := by
  have hdigest : ∀ i : Fin 8, recordedHex (recordedDigests.get i).1 =
      toHex (recordedDigests.get i).2 :=
    fun i => congrArg toHex (recordedSha256_get i)
  refine ⟨⟨rfl, rfl, rfl, rfl, trivial⟩, ⟨rfl, ?_, rfl, ?_, rfl, ?_, rfl, ?_, trivial⟩,
    ?_⟩
  · exact (hdigest 0).symm
  · exact (hdigest 1).symm
  · exact (hdigest 2).symm
  · exact (hdigest 3).symm
  · have hnew : ¬ hashSchemaSequenced < hashSchemaSequenced := lt_irrefl _
    exact ⟨fun h => absurd h hnew, fun h => absurd h hnew,
      fun h => absurd h hnew, fun h => absurd h hnew, trivial⟩

theorem blob_recorded {organization : Option String} {e : AuditEvent}
    (h : e ∈ revocationRows.map (refiled organization)) :
    e.blob ∈ recordedDigests.map Prod.fst := by
  have hblobs : (revocationRows.map (refiled organization)).map AuditEvent.blob =
      (recordedDigests.map Prod.fst).take 4 := rfl
  have hmem := List.mem_map_of_mem (f := AuditEvent.blob) h
  rw [hblobs] at hmem
  exact List.mem_of_mem_take hmem

/-- Appending a row, from the lock to the flush. -/
theorem AuditRun.append {sha256Hex : Bytes → String} {isoformat : Int → String}
    {entries : AuditEntry → Prop} {start db : AuditDB}
    (hr : AuditRun sha256Hex isoformat entries start db) (t : Nat)
    {entry : AuditEntry} {id : String} {ts : Int} {prev : String} {prevSeq : Int}
    {row : AuditEvent}
    (hrow : entry.event sha256Hex isoformat id ts prev prevSeq = row)
    (hentry : entries entry) (hidle : (db.txns t).stage = .idle)
    (hfree : db.lock = none ∨ db.lock = some t)
    (htail : chainTail (db.visible t) = (prev, prevSeq))
    (hunique : ∀ e ∈ db.visible t, e.seq ≠ some (prevSeq + 1)) :
    AuditRun sha256Hex isoformat entries start
      { db.setTxn t { pending := row :: (db.txns t).pending }
        with lock := some t } := by
  let locked : AuditDB :=
    { db.setTxn t { db.txns t with stage := .locked entry } with lock := some t }
  have hself : locked.txns t = { db.txns t with stage := .locked entry } :=
    Function.update_self ..
  have hvisible : locked.visible t = db.visible t := by
    rw [AuditDB.visible, hself]
    rfl
  have hlocked : AuditRun sha256Hex isoformat entries start locked :=
    hr.tail (.lock hidle hentry hfree)
  have hstaged := hlocked.tail (.readTail (congrArg AuditTxn.stage hself))
  rw [hvisible, htail, hself] at hstaged
  let read : AuditDB := locked.setTxn t
    { db.txns t with stage := .tailRead entry prev prevSeq }
  have hself' : read.txns t = { db.txns t with stage := .tailRead entry prev prevSeq } :=
    Function.update_self ..
  have hvisible' : read.visible t = db.visible t := by
    rw [AuditDB.visible, hself']
    rfl
  have hread : AuditRun sha256Hex isoformat entries start read := hstaged
  have hflushed := hread.tail (.flush id ts (congrArg AuditTxn.stage hself')
    (hvisible'.symm ▸ hunique))
  rw [hself', hrow] at hflushed
  simpa only [AuditRun, AuditDB.setTxn, read, locked, Function.update_idem] using hflushed

theorem event_eq_row {operator id prev : String} {ts prevSeq : Int}
    {digest : Bytes}
    (h : recordedSha256 (revocationRow operator id ts prev prevSeq digest).blob =
      digest) :
    (revocation operator).event recordedHex sampleIso id ts prev prevSeq =
      revocationRow operator id ts prev prevSeq digest := by
  rw [AuditEntry.event, revocationRow]
  exact congrArg (fun d => { (revocation operator).unhashed sampleIso id ts prev
    prevSeq with eventHash := toHex d }) h

theorem event_first : (revocation "op-1").event recordedHex sampleIso "e-1" 0
    genesis 0 = firstRow :=
  event_eq_row (recordedSha256_get 0)

theorem event_second : (revocation "op-2").event recordedHex sampleIso "e-2" 0
    (toHex firstDigest) 1 = secondRow :=
  event_eq_row (recordedSha256_get 1)

theorem event_third : (revocation "op-3").event recordedHex sampleIso "e-3"
    1000000 (toHex secondDigest) 2 = thirdRow :=
  event_eq_row (recordedSha256_get 2)

theorem event_fourth : (revocation "op-4").event recordedHex sampleIso "e-4"
    1000000 (toHex thirdDigest) 3 = fourthRow :=
  event_eq_row (recordedSha256_get 3)

theorem event_lost : (revocation "op-5").event recordedHex sampleIso "x-1" 0
    genesis 0 = lostRow :=
  event_eq_row (recordedSha256_get 4)

theorem event_lostNext : (revocation "op-6").event recordedHex sampleIso "x-2" 0
    (toHex lostDigest) 1 = lostNextRow :=
  event_eq_row (recordedSha256_get 5)

/-- What the registry asks of a revocation's detail. -/
def tokenSchemas (action : String) : Option AuditDetailSchema :=
  if action = "operator.tokens_revoked" then some ⟨["operator_id", "by"], []⟩
  else none

theorem sanitized_revocation {operator : String}
    (h : operator ∈ ["op-1", "op-2", "op-3", "op-4", "op-5", "op-6"]) :
    Sanitized tokenSchemas id recordedHex (revocation operator) := by
  refine ⟨[("operator_id", .str operator), ("by", .str "admin")], ?_⟩
  simp only [List.mem_cons, List.not_mem_nil, or_false] at h
  rcases h with rfl | rfl | rfl | rfl | rfl | rfl <;> rfl

/-- Transaction 1 appends two rows around a commit of transaction 0 and is
rolled back; transaction 0 then appends two rows around the rollback of
transaction 2, and transaction 1 a third one. -/
theorem revocations_run : ∃ db : AuditDB,
    AuditRun recordedHex sampleIso (Sanitized tokenSchemas id recordedHex)
      { committed := [] } db ∧ db.committed = [thirdRow, secondRow, firstRow] := by
  have hstart : AuditRun recordedHex sampleIso
      (Sanitized tokenSchemas id recordedHex) { committed := [] }
      { committed := [] } := .refl
  have hlost := AuditRun.append hstart 1 event_lost
    (sanitized_revocation (by simp)) rfl (.inl rfl) rfl (by decide)
  have hidle := hlost.tail (@AuditStep.commit _ _ _ _ 0 rfl)
  have hnext := AuditRun.append hidle 1 event_lostNext
    (sanitized_revocation (by simp)) rfl (.inr rfl) rfl (by decide)
  have hback := hnext.tail (@AuditStep.rollback _ _ _ _ 1)
  have hfirst := AuditRun.append hback 0 event_first
    (sanitized_revocation (by simp)) rfl (.inl rfl) rfl (by decide)
  have hother := hfirst.tail (@AuditStep.rollback _ _ _ _ 2)
  have hsecond := AuditRun.append hother 0 event_second
    (sanitized_revocation (by simp)) rfl (.inr rfl) rfl (by decide)
  have hcommit := hsecond.tail (@AuditStep.commit _ _ _ _ 0 rfl)
  have hthird := AuditRun.append hcommit 1 event_third
    (sanitized_revocation (by simp)) rfl (.inl rfl) rfl (by decide)
  exact ⟨_, hthird.tail (@AuditStep.commit _ _ _ _ 1 rfl), rfl⟩

theorem auditRun_verifies_revocations : ∃ db : AuditDB,
    db.committed = [thirdRow, secondRow, firstRow] ∧
      (db.committed.map AuditEvent.eventHash).Nodup ∧
      (db.committed.insertionSort seqLe).IsChain
        (fun a b => b.prevHash = a.eventHash) ∧
      ∀ throughSeq, verifyChain recordedHex
        (db.committed.map (rereadEvent id)) throughSeq = (true, none) := by
  obtain ⟨db, hrun, hdb⟩ := revocations_run
  obtain ⟨-, hchain, hverifies⟩ :=
    auditRun_verifies tokenSchemas id (fun _ => rfl) rfl hrun
  refine ⟨db, hdb, ?_, hchain, hverifies⟩
  rw [hdb]
  decide

end Committed

end NodeLink.Proofs
