import NodeLink.Proofs.AtMostOnce
import NodeLink.Proofs.JournalTruth
import NodeLink.Server.Delivery

/-!
# Recorded results are true

In every run of the agent together with the server: a result the command
table records is the first one the agent's journal durably stored for that
command id, "succeeded" stands for one execution that exited with 0, and a
recorded row never changes again.

An upload of any other result can only happen after the server has answered
an upload for that id with success, and then the row is recorded already.

A refusal is stored when nothing has been started for its id, but nothing
keeps the command from being started later: a refusal from before the signed
expiry is trusted leaves the journal after a day, and the command may still
be inside its signed window. The last section runs that case.
-/

namespace NodeLink.Proofs

open Lib Agent Server

/-! ## Rows that are recorded -/

section Rows

variable {settings : Settings} {agentID : String} {w : AgentWorld}
  {sv sv' : ServerState} {id : String} {row : CommandRow}

theorem not_accepts_of_recorded {st : CommandStatus}
    (h : st.recorded = true) : st.acceptsResults = false := by
  cases st <;> simp_all [CommandStatus.recorded, CommandStatus.acceptsResults]

theorem not_queued_of_recorded {st : CommandStatus}
    (h : st.recorded = true) : st ≠ .queued ∧ st ≠ .dispatched := by
  constructor <;>
  · rintro rfl
    cases h

theorem notePending_recorded {notices : List (String × Option Int)}
    (h : row.status.recorded = true) :
    notePending agentID notices id row = row := by
  rw [notePending, if_neg]
  rw [not_accepts_of_recorded h]
  exact fun hf => nomatch hf.2

/-- A heartbeat moves a row between statuses without a result only. -/
theorem notePending_status {notices : List (String × Option Int)}
    (h : (notePending agentID notices id row).status.recorded = true) :
    notePending agentID notices id row = row := by
  unfold notePending at h ⊢
  split
  · next hrow =>
      rw [if_pos hrow] at h
      split
      · rfl
      · next hn =>
          rw [hn] at h
          cases h
  · rfl

/-- Every row the loop changes is one of the rows it was given, and it ends
up dispatched or expired. -/
theorem mem_handOut {now : Int} {room : Nat}
    {rows : List (String × CommandRow)} {e : String × CommandRow}
    (h : e ∈ handOut now room rows) :
    e.2.status.recorded = false ∧ ∃ old, (e.1, old) ∈ rows := by
  induction rows generalizing room with
  | nil =>
      rw [handOut] at h
      cases h
  | cons r rest ih =>
      obtain ⟨rid, rrow⟩ := r
      cases room with
      | zero =>
          rw [handOut] at h
          · cases h
          · exact nofun
      | succ room =>
          rw [handOut] at h
          split at h
          · rcases List.mem_cons.mp h with rfl | h
            · exact ⟨rfl, rrow, List.mem_cons_self⟩
            · obtain ⟨hst, old, hold⟩ := ih h
              exact ⟨hst, old, List.mem_cons_of_mem _ hold⟩
          · rcases List.mem_cons.mp h with rfl | h
            · exact ⟨rfl, rrow, List.mem_cons_self⟩
            · obtain ⟨hst, old, hold⟩ := ih h
              exact ⟨hst, old, List.mem_cons_of_mem _ hold⟩

/-- The rows a heartbeat selects are rows of the table without a result. -/
theorem mem_selectDeliverable {version : String} {before : Int}
    {table : CommandTable} {e : String × CommandRow}
    (h : e ∈ selectDeliverable agentID version before table) :
    table.lookup e.1 = some e.2 ∧ e.2.status.recorded = false := by
  rw [selectDeliverable, List.mem_insertionSort, List.mem_filter] at h
  obtain ⟨hmem, hdel⟩ := h
  obtain ⟨⟨k, r⟩, hentry, rfl⟩ := List.mem_map.mp hmem
  refine ⟨AList.mem_lookup_iff.mpr hentry, ?_⟩
  simp only [deliverable, Bool.and_eq_true, Bool.or_eq_true,
    decide_eq_true_eq] at hdel
  rcases hdel.1.2 with hq | ⟨hd, -⟩
  · rw [hq]
    rfl
  · rw [hd]
    rfl

/-- Committing the loop's changes leaves recorded rows alone, and makes no
row recorded. -/
theorem lookup_commitRows {version : String} {before now : Int} {room : Nat}
    {table : CommandTable} (hrow : row.status.recorded = true) :
    (commitRows (handOut now room
      (selectDeliverable agentID version before table)) table).lookup id =
        some row ↔ table.lookup id = some row := by
  rw [commitRows, StrMap.lookup_mapValues]
  cases hl : (handOut now room
      (selectDeliverable agentID version before table)).lookup id with
  | none => simp
  | some new =>
      obtain ⟨l₁, l₂, hmem, -⟩ := List.lookup_eq_some_iff.mp hl
      obtain ⟨hst, old, hold⟩ := mem_handOut (e := (id, new))
        (by rw [hmem]; simp)
      obtain ⟨htab, hnr⟩ := mem_selectDeliverable hold
      constructor
      · intro h
        obtain ⟨r, -, hr⟩ := Option.map_eq_some_iff.mp h
        obtain rfl : new = row := hr
        rw [hst] at hrow
        cases hrow
      · intro h
        rw [htab] at h
        obtain rfl := Option.some.inj h
        rw [hnr] at hrow
        cases hrow

theorem lookup_notePending {notices : List (String × Option Int)}
    {table : CommandTable} (hrow : row.status.recorded = true) :
    (StrMap.mapValues (notePending agentID notices) table).lookup id =
      some row ↔ table.lookup id = some row := by
  rw [StrMap.lookup_mapValues, Option.map_eq_some_iff]
  constructor
  · rintro ⟨old, hold, rfl⟩
    rw [notePending_status hrow]
    exact hold
  · intro h
    exact ⟨row, h, notePending_recorded hrow⟩

/-- A heartbeat neither makes a row recorded nor changes a recorded one. -/
theorem lookup_heartbeat {trust : AgentTrustState} {now : Int}
    {body : HeartbeatIn} {table : CommandTable}
    {reply : List Command × CommandTable} (hrow : row.status.recorded = true)
    (h : heartbeat settings agentID trust now body table = some reply) :
    reply.2.lookup id = some row ↔ table.lookup id = some row := by
  unfold heartbeat at h
  split at h
  · cases h
  · split at h
    · obtain rfl := Option.some.inj h
      exact Iff.rfl
    · split at h
      · obtain rfl := Option.some.inj h
        exact lookup_notePending hrow
      · obtain rfl := Option.some.inj h
        exact (lookup_commitRows hrow).trans (lookup_notePending hrow)

/-- What an upload may do to the table: nothing, or record its result in a
row that has none. -/
theorem submitResult_table {trust : AgentTrustState} {now : Int}
    {body : ResultBody} {table : CommandTable} :
    (submitResult agentID trust now id body table).2 = table ∨
      ∃ old, table.lookup id = some old ∧ old.status.recorded = false ∧
        (submitResult agentID trust now id body table).2 =
          table.insert id (old.record now body) := by
  unfold submitResult
  split
  · exact Or.inl rfl
  · split
    · exact Or.inl rfl
    · split
      · exact Or.inl rfl
      · split
        · exact Or.inl rfl
        · next old hold =>
            rw [Option.filter_eq_some_iff] at hold
            split
            · split
              · exact Or.inl rfl
              · exact Or.inl rfl
            · next hrec =>
                rw [Bool.not_eq_true] at hrec
                split
                · exact Or.inl rfl
                · exact Or.inr ⟨old, hold.1, hrec, rfl⟩

theorem submitResult_lookup_ne {trust : AgentTrustState} {now : Int}
    {body : ResultBody} {table : CommandTable} {id' : String} (hne : id' ≠ id) :
    (submitResult agentID trust now id body table).2.lookup id' =
      table.lookup id' := by
  have htable := @submitResult_table agentID id trust now body table
  rcases htable with heq | ⟨old, -, -, heq⟩
  · rw [heq]
  · rw [heq, AList.lookup_insert_ne hne]

/-- An upload leaves recorded rows alone. -/
theorem submitResult_recorded {trust : AgentTrustState} {now : Int}
    {body : ResultBody} {table : CommandTable} {id' : String}
    (hlook : table.lookup id = some row) (hrow : row.status.recorded = true) :
    (submitResult agentID trust now id' body table).2.lookup id = some row := by
  by_cases hid : id = id'
  · subst hid
    have htable := @submitResult_table agentID id trust now body table
    rcases htable with heq | ⟨old, hold, hnr, -⟩
    · rw [heq]
      exact hlook
    · rw [hlook] at hold
      obtain rfl := Option.some.inj hold
      rw [hnr] at hrow
      cases hrow
  · rw [submitResult_lookup_ne hid]
    exact hlook

/-- An upload that is answered with success finds or leaves a recorded row. -/
theorem submitResult_noContent {trust : AgentTrustState} {now : Int}
    {body : ResultBody} {table : CommandTable}
    (h : (submitResult agentID trust now id body table).1 = .noContent) :
    ∃ row, (submitResult agentID trust now id body table).2.lookup id =
      some row ∧ row.status.recorded = true := by
  unfold submitResult at h ⊢
  split at h
  · cases h
  · next h₁ =>
    rw [if_neg h₁]
    split at h
    · cases h
    · next h₂ =>
      rw [if_neg h₂]
      split at h
      · cases h
      · next h₃ =>
        rw [if_neg h₃]
        split at h
        · cases h
        · next old hold =>
          have hlook := (Option.filter_eq_some_iff.mp hold).1
          split
          · next hrec =>
              split
              · exact ⟨old, hlook, hrec⟩
              · exact ⟨old, hlook, hrec⟩
          · next hrec =>
              rw [if_neg hrec] at h
              split at h
              · cases h
              · next hacc =>
                  rw [if_neg hacc]
                  refine ⟨_, AList.lookup_insert table, ?_⟩
                  show (ite (body.exitCode = 0) CommandStatus.succeeded
                    CommandStatus.failed).recorded = true
                  split <;> rfl

theorem expireOnRevoke_recorded (h : row.status.recorded = true) :
    expireOnRevoke agentID row = row := by
  rw [expireOnRevoke, if_neg]
  rw [not_accepts_of_recorded h]
  rintro ⟨-, hq | hf⟩
  · exact (not_queued_of_recorded h).1 hq
  · cases hf

theorem expireOnRevoke_status
    (h : (expireOnRevoke agentID row).status.recorded = true) :
    expireOnRevoke agentID row = row := by
  unfold expireOnRevoke at h ⊢
  split
  · next hrow =>
      rw [if_pos hrow] at h
      cases h
  · rfl

/-- Changing trust neither makes a row recorded nor changes a recorded one. -/
theorem lookup_setTrust {trust : AgentTrustState}
    (hrow : row.status.recorded = true) :
    (sv.setTrust agentID trust).table.lookup id = some row ↔
      sv.table.lookup id = some row := by
  show AList.lookup id (if _ then _ else _) = _ ↔ _
  split
  · rw [StrMap.lookup_mapValues, Option.map_eq_some_iff]
    constructor
    · rintro ⟨old, hold, rfl⟩
      rw [expireOnRevoke_status hrow]
      exact hold
    · intro h
      exact ⟨row, h, expireOnRevoke_recorded hrow⟩
  · exact Iff.rfl

/-- A recorded row stays as it is, whatever request comes. -/
theorem recorded_stays (h : ServerStep settings agentID w sv sv')
    (hlook : sv.table.lookup id = some row)
    (hrow : row.status.recorded = true) : sv'.table.lookup id = some row := by
  cases h with
  | @dispatch id' owner envelope createdAt expiresAt hfresh huuid =>
      have hne : id ≠ id' := by
        rintro rfl
        rw [hfresh] at hlook
        cases hlook
      exact (AList.lookup_insert_ne hne).trans hlook
  | heartbeat hsent hreply => exact (lookup_heartbeat hrow hreply).mpr hlook
  | submit hsent => exact submitResult_recorded hlook hrow
  | trust htrust => exact (lookup_setTrust hrow).mpr hlook

/-- A heartbeat creates no row. -/
theorem heartbeat_keys {trust : AgentTrustState} {now : Int}
    {body : HeartbeatIn} {table : CommandTable}
    {reply : List Command × CommandTable}
    (h : heartbeat settings agentID trust now body table = some reply)
    (hlook : reply.2.lookup id = some row) :
    ∃ old, table.lookup id = some old := by
  have hmap : ∀ {f : String → CommandRow → CommandRow} {t : CommandTable}
      {r : CommandRow}, (StrMap.mapValues f t).lookup id = some r →
      ∃ old, t.lookup id = some old := by
    intro f t r hr
    rw [StrMap.lookup_mapValues] at hr
    obtain ⟨old, hold, -⟩ := Option.map_eq_some_iff.mp hr
    exact ⟨old, hold⟩
  unfold heartbeat at h
  split at h
  · cases h
  · split at h
    · obtain rfl := Option.some.inj h
      exact ⟨row, hlook⟩
    · split at h
      · obtain rfl := Option.some.inj h
        exact hmap hlook
      · obtain rfl := Option.some.inj h
        obtain ⟨mid, hmid⟩ := hmap hlook
        exact hmap hmid

end Rows

/-! ## The system -/

section System

variable {Key : Type} {ed25519Verify : Key → Bytes → Bytes → Bool}
  {settings : Settings} {agentID : String} {sg : Signer ed25519Verify}
  {w w' : AgentWorld} {sv sv' : ServerState}

/-- A row records a result as the server reads it. -/
structure Records (row : CommandRow) (r : CommandResult) : Prop where
  fields : row.sameResult (ResultBody.ofWire r) = true
  status : row.status = if r.exitCode = 0 then .succeeded else .failed

theorem records_record (row : CommandRow) (now : Int) (r : CommandResult) :
    Records (row.record now (ResultBody.ofWire r)) r := by
  refine ⟨?_, rfl⟩
  simp [CommandRow.sameResult, CommandRow.record]

/-- The invariant of the server's table, `w` holding what it has been sent
and what the agent has been told. -/
structure Tabled (w : AgentWorld) (sv : ServerState) : Prop where
  uuids : ∀ id row, sv.table.lookup id = some row → hasNoncePrefix id = false
  first : ∀ id row, sv.table.lookup id = some row →
    row.status.recorded = true →
      ∃ r, firstStored w id = some r ∧ Records row r
  accepted : ∀ p ∈ sv.accepted, ∃ row, sv.table.lookup p.1 = some row ∧
    row.status.recorded = true
  acked : ∀ p ∈ w.acked, p ∈ sv.accepted

theorem Tabled.acked_recorded (h : Tabled w sv) {id : String}
    (ha : Acked w id) : ∃ row, sv.table.lookup id = some row ∧
      row.status.recorded = true := by
  obtain ⟨r, hr⟩ := ha
  exact h.accepted _ (h.acked _ hr)

theorem tabled_heartbeat {now : Int} {body : HeartbeatIn}
    {reply : List Command × CommandTable} (h : Tabled w sv)
    (hreply : heartbeat settings agentID sv.trust now body sv.table =
      some reply) : Tabled w (sv.handle reply) := by
  refine ⟨?_, ?_, ?_, h.acked⟩
  · intro id row hlook
    obtain ⟨old, hold⟩ := heartbeat_keys hreply hlook
    exact h.uuids id old hold
  · intro id row hlook hrow
    exact h.first id row ((lookup_heartbeat hrow hreply).mp hlook) hrow
  · intro p hp
    obtain ⟨row, hlook, hrow⟩ := h.accepted p hp
    exact ⟨row, (lookup_heartbeat hrow hreply).mpr hlook, hrow⟩

/-- An upload records what the journal stored first: otherwise the server
would have answered an upload for that row with success before. -/
theorem tabled_submit {now : Int} {id : String} {r : CommandResult}
    (ht : Truth w) (h : Tabled w sv) (hsent : (id, r) ∈ w.sent) :
    Tabled w (sv.submitted id r
      (submitResult agentID sv.trust now id (ResultBody.ofWire r) sv.table)) := by
  have htable := @submitResult_table agentID id sv.trust now
    (ResultBody.ofWire r) sv.table
  refine ⟨?_, ?_, ?_, ?_⟩
  · intro id' row hlook
    rcases htable with heq | ⟨old, hold, -, heq⟩
    · exact h.uuids id' row (heq ▸ hlook)
    · by_cases hid : id' = id
      · rw [hid]
        exact h.uuids id old hold
      · exact h.uuids id' row ((submitResult_lookup_ne hid).symm.trans hlook)
  · intro id' row hlook hrow
    rcases htable with heq | ⟨old, hold, hnr, heq⟩
    · exact h.first id' row (heq ▸ hlook) hrow
    · by_cases hid : id' = id
      · subst hid
        have hnew : row = old.record now (ResultBody.ofWire r) := by
          have hl : AList.lookup id' (submitResult agentID sv.trust now id'
            (ResultBody.ofWire r) sv.table).2 = some row := hlook
          rw [heq, AList.lookup_insert] at hl
          exact (Option.some.inj hl).symm
        subst hnew
        refine ⟨r, ?_, records_record old now r⟩
        rcases ht.sent id' r hsent (h.uuids id' old hold) with hf | ha
        · exact hf
        · obtain ⟨row', hrow', hrec'⟩ := h.acked_recorded ha
          rw [hold] at hrow'
          obtain rfl := Option.some.inj hrow'
          rw [hnr] at hrec'
          cases hrec'
      · exact h.first id' row
          ((submitResult_lookup_ne hid).symm.trans hlook) hrow
  · have hold : ∀ p ∈ sv.accepted, ∃ row, (sv.submitted id r
        (submitResult agentID sv.trust now id (ResultBody.ofWire r)
          sv.table)).table.lookup p.1 = some row ∧
        row.status.recorded = true := by
      intro p hp
      obtain ⟨row, hlook, hrow⟩ := h.accepted p hp
      exact ⟨row, submitResult_recorded hlook hrow, hrow⟩
    intro p hp
    have hp' : p ∈ ite ((submitResult agentID sv.trust now id
        (ResultBody.ofWire r) sv.table).1 = .noContent)
        ((id, r) :: sv.accepted) sv.accepted := hp
    split at hp'
    · next hok =>
        rcases List.mem_cons.mp hp' with rfl | hmem
        · exact submitResult_noContent hok
        · exact hold p hmem
    · exact hold p hp'
  · intro p hp
    show p ∈ ite _ _ _
    split
    · exact List.mem_cons_of_mem _ (h.acked p hp)
    · exact h.acked p hp

theorem tabled_dispatch {id owner : String} {envelope : Command}
    {createdAt : Int} {expiresAt : Option Int} (h : Tabled w sv)
    (hfresh : sv.table.lookup id = none) (huuid : hasNoncePrefix id = false) :
    Tabled w (sv.newCommand id
      (queuedRow owner envelope createdAt expiresAt)) := by
  have hne : ∀ id', id' ≠ id → (sv.newCommand id
      (queuedRow owner envelope createdAt expiresAt)).table.lookup id' =
        sv.table.lookup id' := fun id' hid => AList.lookup_insert_ne hid
  have hself : (sv.newCommand id
      (queuedRow owner envelope createdAt expiresAt)).table.lookup id =
        some (queuedRow owner envelope createdAt expiresAt) :=
    AList.lookup_insert sv.table
  refine ⟨?_, ?_, ?_, h.acked⟩
  · intro id' row hlook
    by_cases hid : id' = id
    · rw [hid]
      exact huuid
    · exact h.uuids id' row (hne id' hid ▸ hlook)
  · intro id' row hlook hrow
    by_cases hid : id' = id
    · rw [hid, hself] at hlook
      obtain rfl := Option.some.inj hlook
      cases hrow
    · exact h.first id' row (hne id' hid ▸ hlook) hrow
  · intro p hp
    obtain ⟨row, hlook, hrow⟩ := h.accepted p hp
    have hid : p.1 ≠ id := by
      rintro heq
      rw [heq, hfresh] at hlook
      cases hlook
    exact ⟨row, (hne p.1 hid).trans hlook, hrow⟩

theorem tabled_setTrust {trust : AgentTrustState} (h : Tabled w sv) :
    Tabled w (sv.setTrust agentID trust) := by
  refine ⟨?_, ?_, ?_, h.acked⟩
  · intro id row hlook
    have hl : AList.lookup id (ite (trust = .revoked)
        (StrMap.mapValues (fun _ => expireOnRevoke agentID) sv.table)
        sv.table) = some row := hlook
    split at hl
    · rw [StrMap.lookup_mapValues] at hl
      obtain ⟨old, hold, -⟩ := Option.map_eq_some_iff.mp hl
      exact h.uuids id old hold
    · exact h.uuids id row hl
  · intro id row hlook hrow
    exact h.first id row ((lookup_setTrust hrow).mp hlook) hrow
  · intro p hp
    obtain ⟨row, hlook, hrow⟩ := h.accepted p hp
    exact ⟨row, (lookup_setTrust hrow).mpr hlook, hrow⟩

/-- Requests keep the table true to what the agent has sent. -/
theorem tabled_step (ht : Truth w) (h : Tabled w sv)
    (hs : ServerStep settings agentID w sv sv') : Tabled w sv' := by
  cases hs with
  | dispatch hfresh huuid => exact tabled_dispatch h hfresh huuid
  | heartbeat hsent hreply => exact tabled_heartbeat h hreply
  | submit hsent => exact tabled_submit ht h hsent
  | trust htrust => exact tabled_setTrust h

theorem firstResult_append {id : String} {r : CommandResult}
    {new old : List (List Command × SeenStore)}
    (h : firstResult id old = some r) : firstResult id (new ++ old) = some r := by
  induction new with
  | nil => exact h
  | cons e new ih =>
      rw [List.cons_append, firstResult, ih]
      rfl

/-- The table stays true to an agent that has stored more, and been told
nothing the server did not say. -/
theorem Tabled.later (h : Tabled w sv) (hsaved : ∃ new, w'.saved = new ++ w.saved)
    (hacked : ∀ p ∈ w'.acked, p ∈ sv.accepted) : Tabled w' sv := by
  refine ⟨h.uuids, ?_, h.accepted, hacked⟩
  intro id row hlook hrow
  obtain ⟨r, hf, hr⟩ := h.first id row hlook hrow
  obtain ⟨new, hnew⟩ := hsaved
  refine ⟨r, ?_, hr⟩
  rw [firstStored, hnew]
  exact firstResult_append hf

/-- One step of the whole system: the agent gets to `mid`, where its
requests are out, the server handles requests, and the agent goes on. -/
structure Exchange (settings : Settings) (agentID : String)
    (sg : Signer ed25519Verify) (c c' : DeliveryState Key) (mid : AgentWorld) :
    Prop where
  sent : AgentRun sg (c.1.1, c.2) (mid, .down)
  done : AgentRun sg (c.1.1, c.2) (c'.1.1, c'.2)
  acked : mid.acked = c.1.1.acked
  saved : ∃ new, mid.saved = new ++ c.1.1.saved
  same : c'.1.1.saved = mid.saved
  served : Relation.ReflTransGen (ServerStep settings agentID mid) c.1.2 c'.1.2
  told : (∀ p ∈ c'.1.1.acked, p ∈ c'.1.2.accepted) ∨
    c'.1.1.acked = c.1.1.acked

/-- A step of the agent alone, which leaves its world alone. -/
theorem exchange_still {w : AgentWorld} {sv : ServerState}
    {p p' : Proc AgentOp (AgentOp.Ans Key) (Session Key)}
    (h : (agentMachine ed25519Verify).Step (agentWorld sg.trusts)
      (w, p) (w, p')) :
    Exchange settings agentID sg ((w, sv), p) ((w, sv), p') w :=
  ⟨.single .crash, .single h, rfl, ⟨[], rfl⟩, rfl, .refl, Or.inr rfl⟩

/-- Saving is all that changes what the file has held. -/
theorem agentDoes_saved {trusts : TrustedKeys Key → Prop} {o : AgentOp}
    {a : AgentOp.Ans Key o} (h : agentDoes trusts w o a w') :
    ∃ new, w'.saved = new ++ w.saved := by
  cases o with
  | now =>
      obtain ⟨-, rfl⟩ := h
      exact ⟨[], rfl⟩
  | identity =>
      obtain ⟨-, rfl⟩ := h
      exact ⟨[], rfl⟩
  | load =>
      obtain ⟨-, rfl⟩ := h
      exact ⟨[], rfl⟩
  | save entries =>
      rcases h with rfl | ⟨-, rfl⟩
      · exact ⟨[_], rfl⟩
      · exact ⟨[], rfl⟩
  | heartbeat notices =>
      cases a with
      | ok keys cmds =>
          obtain ⟨-, rfl⟩ := h
          exact ⟨[], rfl⟩
      | failed =>
          obtain rfl : w' = _ := h
          exact ⟨[], rfl⟩
      | quarantined =>
          obtain rfl : w' = _ := h
          exact ⟨[], rfl⟩
  | report id result =>
      obtain rfl : w' = _ := h
      split <;> exact ⟨[], rfl⟩
  | execute cmd =>
      obtain rfl : w' = _ := h
      exact ⟨[], rfl⟩

/-- The world where the requests are out is one a crash may leave. -/
theorem agentRun_requests {o : AgentOp} {a : AgentOp.Ans Key o}
    {k : AgentOp.Ans Key o → AgentProg Key (Option (Session Key))}
    (h : agentDoes sg.trusts w o a w') :
    AgentRun sg (w, .busy (.act o k)) (requests w w', .down) := by
  have hdone : AgentRun sg (w, .busy (.act o k)) (w', .down) :=
    (Relation.ReflTransGen.single (.act h)).tail .crash
  have hsame : w'.acked = w.acked → w'.received = w.received →
      requests w w' = w' := by
    intro ha hr
    rw [requests, ← ha, ← hr]
  cases o with
  | now =>
      obtain ⟨-, rfl⟩ := h
      exact hdone
  | identity =>
      obtain ⟨-, rfl⟩ := h
      exact hdone
  | load =>
      obtain ⟨-, rfl⟩ := h
      exact hdone
  | save entries =>
      rcases h with rfl | ⟨-, rfl⟩
      · exact hdone
      · exact hdone
  | heartbeat notices =>
      have htorn : requests w w' = w.notify notices := by
        cases a with
        | ok keys cmds =>
            obtain ⟨-, rfl⟩ := h
            rfl
        | failed =>
            obtain rfl : w' = _ := h
            rfl
        | quarantined =>
            obtain rfl : w' = _ := h
            rfl
      exact .single (.tear htorn)
  | report id result =>
      have htorn : requests w w' = w.send id result := by
        obtain rfl : w' = _ := h
        split <;> rfl
      exact .single (.tear htorn)
  | execute cmd =>
      obtain rfl : w' = _ := h
      exact hdone

theorem agentTorn_logs {o : AgentOp} (h : agentTorn w o w') :
    w'.acked = w.acked ∧ ∃ new, w'.saved = new ++ w.saved := by
  cases o with
  | save entries =>
      obtain rfl : w' = _ := h
      exact ⟨rfl, [_], rfl⟩
  | heartbeat notices =>
      obtain rfl : w' = _ := h
      exact ⟨rfl, [], rfl⟩
  | report id result =>
      obtain rfl : w' = _ := h
      exact ⟨rfl, [], rfl⟩
  | execute cmd =>
      obtain rfl : w' = _ := h
      exact ⟨rfl, [], rfl⟩
  | now => exact h.elim
  | identity => exact h.elim
  | load => exact h.elim

theorem deliveryStep_exchange {c c' : DeliveryState Key}
    (h : DeliveryStep settings agentID sg c c') :
    ∃ mid, Exchange settings agentID sg c c' mid := by
  cases h with
  | server hs =>
      exact ⟨_, .single .crash, .refl, rfl, ⟨[], rfl⟩, rfl, .single hs,
        Or.inr rfl⟩
  | agent hs =>
      cases hs with
      | boot => exact ⟨_, exchange_still .boot⟩
      | start hp => exact ⟨_, exchange_still (.start hp)⟩
      | settle => exact ⟨_, exchange_still .settle⟩
      | stop => exact ⟨_, exchange_still .stop⟩
      | crash => exact ⟨_, exchange_still .crash⟩
      | act hd =>
          obtain ⟨hdo, hserved, hans⟩ := hd
          have hsaved := agentDoes_saved hdo
          exact ⟨_, agentRun_requests hdo, .single (.act hdo), rfl, hsaved,
            rfl, hserved, Or.inl hans.acks⟩
      | tear ht =>
          obtain ⟨htorn, hsv⟩ := ht
          obtain ⟨hacked, hsaved⟩ := agentTorn_logs htorn
          refine ⟨_, .single (.tear htorn), .single (.tear htorn), hacked,
            hsaved, rfl, ?_, Or.inr hacked⟩
          rw [hsv]

/-- The invariant of the whole system. -/
structure Delivered (sg : Signer ed25519Verify) (w₀ : AgentWorld)
    (c : DeliveryState Key) : Prop where
  reach : AgentRun sg (w₀, .down) (c.1.1, c.2)
  table : Tabled c.1.1 c.1.2

variable {w₀ : AgentWorld}

theorem delivered_step (h₀ : Installed w₀) (c c' : DeliveryState Key)
    (h : Delivered sg w₀ c) (hs : DeliveryStep settings agentID sg c c') :
    Delivered sg w₀ c' := by
  obtain ⟨mid, hex⟩ := deliveryStep_exchange hs
  refine ⟨h.reach.trans hex.done, ?_⟩
  have htruth : Truth mid :=
    (truthful_run h₀ (agentRun_refines (h.reach.trans hex.sent)).1).1
  have hmid : Tabled mid c.1.2 := by
    refine h.table.later hex.saved ?_
    rw [hex.acked]
    exact h.table.acked
  have hserved : Tabled mid c'.1.2 :=
    invariant_of_steps (I := Tabled mid)
      (fun _ _ ht hst => tabled_step htruth ht hst) hmid hex.served
  refine hserved.later ⟨[], hex.same⟩ ?_
  rcases hex.told with htold | hsame
  · exact htold
  · rw [hsame, ← hex.acked]
    exact hserved.acked

/-- The system at the start: an agent just installed, an empty table. -/
def started (w₀ : AgentWorld) : DeliveryState Key := ((w₀, {}), .down)

theorem delivered_run (h₀ : Installed w₀) {c : DeliveryState Key}
    (hr : DeliveryRun settings agentID sg (started w₀) c) :
    Delivered sg w₀ c := by
  refine invariant_of_steps (I := Delivered sg w₀) (delivered_step h₀) ?_ hr
  refine ⟨Relation.ReflTransGen.refl, ?_⟩
  obtain ⟨clock, rfl⟩ := h₀
  have hempty : ∀ id, (∅ : CommandTable).lookup id = none := AList.lookup_empty
  refine ⟨?_, ?_, fun _ hmem => absurd hmem List.not_mem_nil,
    fun _ hmem => absurd hmem List.not_mem_nil⟩
  · intro id row hlook
    rw [show (started { disk := ∅, clock := clock } :
      DeliveryState Key).1.2.table = ∅ from rfl, hempty] at hlook
    cases hlook
  · intro id row hlook
    rw [show (started { disk := ∅, clock := clock } :
      DeliveryState Key).1.2.table = ∅ from rfl, hempty] at hlook
    cases hlook

/-- The commands with one id among those started. -/
def startsOf (w : AgentWorld) (id : String) : List Command :=
  w.started.filter fun cmd => decide (cmd.id = id)

theorem filter_id {cmds : List Command} {cmd : Command}
    (h : DistinctKeys cmds) (hmem : cmd ∈ cmds) :
    cmds.filter (fun c => decide (c.id = cmd.id)) = [cmd] := by
  induction cmds with
  | nil => cases hmem
  | cons a l ih =>
      obtain ⟨hne, hl⟩ := List.pairwise_cons.mp h
      rcases List.mem_cons.mp hmem with rfl | hmem
      · rw [List.filter_cons_of_pos (by simp), List.cons.injEq]
        refine ⟨rfl, List.filter_eq_nil_iff.mpr ?_⟩
        intro b hb
        rw [decide_eq_true_eq]
        exact (hne b hb).1.symm
      · rw [List.filter_cons_of_neg, ih hl hmem]
        rw [decide_eq_true_eq]
        exact (hne cmd hmem).1

theorem startsOf_eq {cmd : Command} (h : DistinctKeys w.started)
    (hmem : cmd ∈ w.started) : startsOf w cmd.id = [cmd] := filter_id h hmem

/-- A recorded result is true: it is the first one the journal stored, which
is genuine, and "succeeded" means one execution that exited with 0. -/
structure RecordedTruly (w : AgentWorld) (id : String) (row : CommandRow) :
    Prop where
  stored : ∃ r, firstStored w id = some r ∧ Records row r ∧ Genuine w id r
  once : (startsOf w id).length ≤ 1
  succeeded : row.status = .succeeded → ∃ cmd res,
    startsOf w id = [cmd] ∧ (cmd, res) ∈ w.finished ∧ res.exitCode = 0

theorem recordedTruly_of_delivered (h₀ : Installed w₀) {c : DeliveryState Key}
    (h : Delivered sg w₀ c) {id : String} {row : CommandRow}
    (hlook : c.1.2.table.lookup id = some row)
    (hrow : row.status.recorded = true) : RecordedTruly c.1.1 id row := by
  have hprotocol := (agentRun_refines h.reach).1
  have htruth : Truth c.1.1 := (truthful_run h₀ hprotocol).1
  have hdistinct : DistinctKeys c.1.1.started := by
    obtain ⟨clock, rfl⟩ := h₀
    exact (guarded_run rfl hprotocol).1.distinct
  obtain ⟨r, hfirst, hrec⟩ := h.table.first id row hlook hrow
  have hgen := htruth.genuine id r (h.table.uuids id row hlook) hfirst
  refine ⟨⟨r, hfirst, hrec, hgen⟩, ?_, ?_⟩
  · cases hl : startsOf c.1.1 id with
    | nil => exact Nat.zero_le 1
    | cons cmd l =>
        obtain ⟨hmem, hid⟩ := List.mem_filter.mp (hl ▸ List.mem_cons_self :
          cmd ∈ startsOf c.1.1 id)
        rw [decide_eq_true_eq] at hid
        have hone := startsOf_eq hdistinct hmem
        rw [hid, hl] at hone
        rw [hone]
        exact le_rfl
  · intro hsucc
    have hzero : r.exitCode = 0 := by
      by_contra hne
      rw [hrec.status, if_neg hne] at hsucc
      cases hsucc
    cases hgen with
    | @output cmd res reading hfin hid =>
        refine ⟨cmd, res, ?_, hfin, hzero⟩
        rw [← hid]
        exact startsOf_eq hdistinct (htruth.finished _ hfin)
    | refused reason hsaved hres hnot => cases hzero
    | unknown => cases hzero

/-- Recorded results are true, and they stay: in every run from the start,
every recorded row is truthful, and keeps its status and all its fields in
every continuation of the run. -/
theorem deliveryRun_records_truly (h₀ : Installed w₀) {c : DeliveryState Key}
    (hrun : DeliveryRun settings agentID sg (started w₀) c) {id : String}
    {row : CommandRow} (hlook : c.1.2.table.lookup id = some row)
    (hrow : row.status.recorded = true) :
    RecordedTruly c.1.1 id row ∧
      ∀ c', DeliveryRun settings agentID sg c c' →
        c'.1.2.table.lookup id = some row := by
  refine ⟨recordedTruly_of_delivered h₀ (delivered_run h₀ hrun) hlook hrow, ?_⟩
  intro c' hr
  refine invariant_of_steps
    (I := fun c : DeliveryState Key => c.1.2.table.lookup id = some row)
    ?_ hlook hr
  intro c₁ c₂ h₁ hs
  obtain ⟨mid, hex⟩ := deliveryStep_exchange hs
  exact invariant_of_steps
    (I := fun sv : ServerState => sv.table.lookup id = some row)
    (fun _ _ hl hst => recorded_stays hst hl hrow) h₁ hex.served

end System

/-! ## A refusal that does not last

A run of a system whose server repeats, on every heartbeat, the commands it
has handed out so far. -/

section Script

variable {Key : Type} (settings : Settings) (agentID : String)
  {trusts : TrustedKeys Key → Prop} (keys : { k : TrustedKeys Key // trusts k })
  (now : Int)

def answerHeartbeat (c : AgentWorld × ServerState)
    (notices : List (String × Option Int)) :
    HeartbeatReply Key × AgentWorld × ServerState :=
  match heartbeat settings agentID c.2.trust now
      ⟨[Agent.commandEnvelopeV3], noticesOfWire notices⟩ c.2.table with
  | none => (.failed, c.1.notify notices, c.2)
  | some reply =>
    (.ok keys.1 (c.2.handle reply).handedOut,
      (c.1.notify notices).receive (c.2.handle reply).handedOut,
      c.2.handle reply)

def replyTo (sv : ServerState) (id : String) (r : CommandResult) :
    SubmitReply × CommandTable :=
  submitResult agentID sv.trust now id (ResultBody.ofWire r) sv.table

def answerReport (c : AgentWorld × ServerState) (id : String)
    (r : CommandResult) : Bool × AgentWorld × ServerState :=
  if (replyTo agentID now c.2 id r).1 = .noContent then
    (true, (c.1.send id r).ack id r,
      c.2.submitted id r (replyTo agentID now c.2 id r))
  else (false, c.1.send id r, c.2.submitted id r (replyTo agentID now c.2 id r))

variable {agentID settings keys now} {c : AgentWorld × ServerState}

theorem answerHeartbeat_does (h : Answered c.1 c.2)
    (notices : List (String × Option Int)) :
    (deliveryWorld settings agentID trusts).does c (.heartbeat notices)
        (answerHeartbeat settings agentID keys now c notices).1
        (answerHeartbeat settings agentID keys now c notices).2 ∧
      Answered (answerHeartbeat settings agentID keys now c notices).2.1
        (answerHeartbeat settings agentID keys now c notices).2.2 := by
  unfold answerHeartbeat
  split
  · have hans : Answered (c.1.notify notices) c.2 := ⟨h.acks, h.commands⟩
    exact ⟨⟨rfl, .refl, hans⟩, hans⟩
  · next reply hreply =>
      have hans : Answered ((c.1.notify notices).receive
          (c.2.handle reply).handedOut) (c.2.handle reply) := by
        refine ⟨h.acks, ?_⟩
        intro cmd hcmd
        rcases List.mem_append.mp hcmd with hnew | hold
        · exact hnew
        · exact List.mem_append_right _ (h.commands cmd hold)
      refine ⟨⟨⟨keys.2, rfl⟩, .single ?_, hans⟩, hans⟩
      exact .heartbeat List.mem_cons_self hreply

variable (settings trusts) in
theorem answerReport_does (h : Answered c.1 c.2) (id : String)
    (r : CommandResult) :
    (deliveryWorld settings agentID trusts).does c (.report id r)
        (answerReport agentID now c id r).1
        (answerReport agentID now c id r).2 ∧
      Answered (answerReport agentID now c id r).2.1
        (answerReport agentID now c id r).2.2 := by
  have hstep : ∀ w : AgentWorld, (id, r) ∈ w.sent →
      ServerStep settings agentID w c.2
        (c.2.submitted id r (replyTo agentID now c.2 id r)) :=
    fun w hsent => .submit hsent
  unfold answerReport
  split
  · next hok =>
      have hans : Answered ((c.1.send id r).ack id r)
          (c.2.submitted id r (replyTo agentID now c.2 id r)) := by
        refine ⟨?_, h.commands⟩
        show ∀ p ∈ (id, r) :: c.1.acked, p ∈ ite _ ((id, r) :: c.2.accepted) _
        rw [if_pos hok]
        intro p hp
        rcases List.mem_cons.mp hp with rfl | hp
        · exact List.mem_cons_self
        · exact List.mem_cons_of_mem _ (h.acks p hp)
      exact ⟨⟨rfl, .single (hstep _ List.mem_cons_self), hans⟩, hans⟩
  · next hno =>
      have hans : Answered (c.1.send id r)
          (c.2.submitted id r (replyTo agentID now c.2 id r)) := by
        refine ⟨?_, h.commands⟩
        show ∀ p ∈ c.1.acked, p ∈ ite _ _ c.2.accepted
        rw [if_neg hno]
        exact h.acks
      exact ⟨⟨rfl, .single (hstep _ List.mem_cons_self), hans⟩, hans⟩

end Script

/-- An answering server: `reading` is the agent's clock, `now` the server's,
and every process ends with `res`. -/
def repeatingScript {Key : Type} (settings : Settings) (agentID : String)
    {trusts : TrustedKeys Key → Prop} (keys : { k : TrustedKeys Key // trusts k })
    (reading : Nat) (now : Int) (res : ExecutionResult) :
    Script (deliveryWorld settings agentID trusts) where
  answer := fun c o =>
    match o with
    | .now =>
      (show Nat from max c.1.clock reading,
        (c.1.tick (max c.1.clock reading), c.2))
    | .identity => (⟨agentID, keys.1⟩, c)
    | .load => (some c.1.disk, c)
    | .save entries => (true, (c.1.replaceFile entries, c.2))
    | .heartbeat notices => answerHeartbeat settings agentID keys now c notices
    | .report id r => answerReport agentID now c id r
    | .execute cmd => (res, (c.1.finish cmd res, c.2))
  covers := fun c => Answered c.1 c.2
  lawful := by
    intro c o h
    cases o with
    | now => exact ⟨⟨le_max_left _ _, rfl⟩, .refl, ⟨h.acks, h.commands⟩⟩
    | identity => exact ⟨⟨keys.2, rfl⟩, .refl, h⟩
    | load => exact ⟨⟨Or.inr rfl, rfl⟩, .refl, h⟩
    | save entries => exact ⟨Or.inl rfl, .refl, ⟨h.acks, h.commands⟩⟩
    | heartbeat notices => exact (answerHeartbeat_does h notices).1
    | report id r => exact (answerReport_does settings trusts h id r).1
    | execute cmd => exact ⟨rfl, .refl, ⟨h.acks, h.commands⟩⟩
  closed := by
    intro c o h
    cases o with
    | heartbeat notices => exact (answerHeartbeat_does h notices).2
    | report id r => exact (answerReport_does settings trusts h id r).2
    | identity => exact h
    | load => exact h
    | _ => exact ⟨h.acks, h.commands⟩

/-- A command issued ten minutes ahead of the agent's clock, valid for a
day. -/
def earlyCommand : Command where
  id := "c-1"
  agentID := "a-1"
  kind := "shell"
  payload := utf8 "\x7b\x7d".toList
  envelopeVersion := Agent.commandEnvelopeV3
  schemaVersion := 1
  issuedAt := "1970-01-02T00:10:00Z"
  nonce := "abcdefghijklmnopqrstuv"
  signingKeyID := "k1"
  signature := "AA=="
  expiresAt := "1970-01-03T00:10:00Z"

def earlyMessage : Bytes :=
  ((canonicalCommandBytes (earlyCommand.envelope "a-1" ["k1"])).toOption).getD []

def earlySigner : Signer (verifiesOnly earlyMessage) := Signer.ofMessage earlyMessage

/-- The agent's clock stands at `hours` hours and `minutes` minutes after the
start of 1970, the server's ten minutes ahead. -/
def earlyScript (hours minutes : Nat) :
    Script (deliveryWorld {} "a-1" earlySigner.trusts) :=
  repeatingScript {} "a-1"
    ⟨⟨(), [("k1", ())]⟩, trivial, by simp [earlySigner, Signer.ofMessage]⟩
    ((hours * 60 + minutes) * 60 * 1000000000)
    ((719528 * 1440 + hours * 60 + minutes + 10 : Nat) * 60 * 1000000)
    { exitCode := 0 }

def earlyTurn (hours minutes : Nat) :
    (AgentWorld × ServerState) × Option (Session Unit) →
      (AgentWorld × ServerState) × Option (Session Unit) :=
  (earlyScript hours minutes).turn (agentMachine (verifiesOnly earlyMessage))
    (beat (verifiesOnly earlyMessage))

/-- The system with the command queued. -/
def earlyStart : AgentWorld × ServerState :=
  ({ disk := ∅, clock := 0 }, ({} : ServerState).newCommand "c-1"
    (queuedRow "a-1" earlyCommand ((719529 * 1440 + 10) * 60 * 1000000)
      (some ((719530 * 1440 + 10) * 60 * 1000000))))

/-- The agent boots and is handed the command a day into 1970, refuses it,
and is handed it again a day and a minute later. -/
@[irreducible] def earlyEnd : (AgentWorld × ServerState) × Option (Session Unit) :=
  earlyTurn 48 1 (earlyTurn 24 0 (earlyTurn 24 0 (earlyStart, none)))

theorem earlyTurn_run (hours minutes : Nat)
    {c : (AgentWorld × ServerState) × Option (Session Unit)}
    (h : Answered c.1.1 c.1.2) :
    DeliveryRun {} "a-1" earlySigner (c.1, .ofOption c.2)
        ((earlyTurn hours minutes c).1, .ofOption (earlyTurn hours minutes c).2) ∧
      Answered (earlyTurn hours minutes c).1.1
        (earlyTurn hours minutes c).1.2 := by
  have hrun : (agentMachine (verifiesOnly earlyMessage)).Run _ (c.1, .ofOption c.2)
      ((earlyTurn hours minutes c).1, .ofOption (earlyTurn hours minutes c).2) :=
    (earlyScript hours minutes).run_turn (fun _ => rfl) h
  refine ⟨Relation.ReflTransGen.mono (fun _ _ hs => .agent hs) _ _ hrun, ?_⟩
  exact (earlyScript hours minutes).covers_turn h

theorem earlyEnd_run : DeliveryRun {} "a-1" earlySigner
    (started { disk := ∅, clock := 0 }) (earlyEnd.1, .ofOption earlyEnd.2) := by
  have hqueued : DeliveryRun {} "a-1" earlySigner
      (started { disk := ∅, clock := 0 }) (earlyStart, .down) :=
    .single (.server (.dispatch rfl (by decide +kernel)))
  have h₀ : Answered earlyStart.1 earlyStart.2 := ⟨nofun, nofun⟩
  obtain ⟨hrun₁, h₁⟩ := earlyTurn_run 24 0 (c := (earlyStart, none)) h₀
  obtain ⟨hrun₂, h₂⟩ := earlyTurn_run 24 0 h₁
  obtain ⟨hrun₃, -⟩ := earlyTurn_run 48 1 h₂
  unfold earlyEnd
  exact ((hqueued.trans hrun₁).trans hrun₂).trans hrun₃

/-- A refusal read as "the process never started". -/
def RecordedOutright (w : AgentWorld) (id : String) (row : CommandRow) : Prop :=
  ∃ r, (∃ e ∈ w.saved, resultIn e.2 id = some r) ∧ Records row r ∧
    ((∃ cmd res reading, (cmd, res) ∈ w.finished ∧ cmd.id = id ∧
        r = CommandResult.completedAt res reading) ∨
      r = SeenStore.unknownOutcome ∨
      ∃ reason, r = refusal reason ∧ ∀ cmd ∈ w.started, cmd.id ≠ id)

def earlyRow : Option CommandRow := earlyEnd.1.2.table.lookup "c-1"

theorem earlyEnd_facts :
    earlyEnd.1.1.started = [earlyCommand] ∧
      earlyRow.map (fun row => (row.status, row.stderr, row.agentCompletedAt)) =
        some (.failed, some (refusal "invalid signed time window").stderr, none) := by
  decide +kernel

/-- The table records a refusal of a command whose process has started. -/
theorem recorded_refusal_then_started : ∃ c : DeliveryState Unit,
    DeliveryRun {} "a-1" earlySigner (started { disk := ∅, clock := 0 }) c ∧
      ∃ row, c.1.2.table.lookup "c-1" = some row ∧
        row.status.recorded = true ∧ ¬ RecordedOutright c.1.1 "c-1" row := by
  refine ⟨_, earlyEnd_run, ?_⟩
  obtain ⟨hstarted, hfacts⟩ := earlyEnd_facts
  obtain ⟨row, hrow, heq⟩ := Option.map_eq_some_iff.mp hfacts
  simp only [Prod.mk.injEq] at heq
  obtain ⟨hstatus, hstderr, hcompleted⟩ := heq
  refine ⟨row, hrow, by rw [hstatus]; rfl, ?_⟩
  rintro ⟨r, -, hrec, hcase⟩
  have hfields := hrec.fields
  simp only [CommandRow.sameResult, Bool.and_eq_true, decide_eq_true_eq,
    hstderr, hcompleted] at hfields
  rcases hcase with ⟨cmd, res, reading, -, -, rfl⟩ | rfl | ⟨reason, -, hnone⟩
  · exact Option.some_ne_none _ hfields.2.symm
  · have hne : some (refusal "invalid signed time window").stderr ≠
        some SeenStore.unknownOutcome.stderr := by decide +kernel
    exact hne hfields.1.1.1.1.1.2
  · refine hnone earlyCommand ?_ rfl
    rw [hstarted]
    exact List.mem_cons_self

theorem deliveryRun_records_truly_early : ∃ row,
    earlyEnd.1.2.table.lookup "c-1" = some row ∧
      RecordedTruly earlyEnd.1.1 "c-1" row := by
  obtain ⟨row, hrow, heq⟩ := Option.map_eq_some_iff.mp earlyEnd_facts.2
  have hstatus : row.status = .failed := congrArg Prod.fst heq
  have hlook : earlyEnd.1.2.table.lookup "c-1" = some row := hrow
  exact ⟨row, hlook, (deliveryRun_records_truly ⟨0, rfl⟩ earlyEnd_run hlook
    (by rw [hstatus]; rfl)).1⟩

end NodeLink.Proofs
