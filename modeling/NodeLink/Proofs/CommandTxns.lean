import NodeLink.Proofs.RecordedResults
import NodeLink.Server.LateRequests

/-!
# What heartbeats, uploads and revocations commit

Every row a transaction writes was read without a result. What a heartbeat
expires was queued, or dispatched and not in its notices; what it hands out it
writes. The column that is written as the status depends on the status read.
-/

namespace NodeLink.Proofs

open Lib Agent Server

/-- What every transaction is like. -/
structure Measured (txn : CommandTxn) : Prop where
  unrecorded : ∀ e ∈ txn.writes, e.read.status.recorded = false
  same : ∀ e ∈ txn.writes, ∀ row : CommandRow, row.status = e.read.status →
    (e.edit row).status = (e.edit e.read).status
  moves : ∀ e ∈ txn.writes, (e.edit e.read).status ≠ .queued
  handed : ∀ notices cmds, ServerNote.handedOut notices cmds ∈ txn.inserts →
    ∀ cmd ∈ cmds, ∃ e ∈ txn.writes, e.key = cmd.id
  expires : ∀ notices cmds, ServerNote.handedOut notices cmds ∈ txn.inserts →
    ∀ e ∈ txn.writes, (e.edit e.read).status = .expired →
      e.read.status = .queued ∨
        (e.read.status = .dispatched ∧ notices.lookup e.key = none)

theorem measured_empty : Measured {} where
  unrecorded := fun _ he => absurd he List.not_mem_nil
  same := fun _ he => absurd he List.not_mem_nil
  moves := fun _ he => absurd he List.not_mem_nil
  handed := fun _ _ hn => absurd hn List.not_mem_nil
  expires := fun _ _ hn => absurd hn List.not_mem_nil

section Writes

variable {agentID : String} {table : CommandTable}

theorem mem_rowsWhere {p : String → CommandRow → Bool} {id : String}
    {row : CommandRow} :
    (id, row) ∈ rowsWhere p table ↔
      table.lookup id = some row ∧ p id row = true := by
  rw [rowsWhere, List.mem_filter, List.mem_map]
  refine and_congr_left' ?_
  constructor
  · intro ⟨e, he, heq⟩
    cases heq
    exact AList.mem_lookup_iff.mpr he
  · intro h
    exact ⟨⟨id, row⟩, AList.mem_lookup_iff.mp h, rfl⟩

theorem flushRow_status {read new row : CommandRow}
    (h : row.status = read.status) :
    (flushRow read new row).status = new.status := by
  show (if new.status = read.status then row.status else new.status) = _
  split
  · next hsame => rw [h, hsame]
  · rfl

theorem flushed_same {id : String} {read new row : CommandRow}
    (h : row.status = read.status) :
    ((flushed id read new).edit row).status =
      ((flushed id read new).edit read).status :=
  (flushRow_status h).trans (flushRow_status rfl).symm

theorem notePending_of_noticed {notices : List (String × Option Int)}
    {id : String} {row : CommandRow}
    (h : noticed agentID notices id row = true) :
    row.status.acceptsResults = true ∧
      (notePending agentID notices id row).status = .resultPending := by
  simp only [noticed, Bool.and_eq_true, decide_eq_true_eq] at h
  obtain ⟨⟨hagent, haccepts⟩, hnotice⟩ := h
  refine ⟨haccepts, ?_⟩
  rw [notePending, if_pos ⟨hagent, haccepts⟩]
  split
  · next hnone =>
      rw [hnone] at hnotice
      cases hnotice
  · rfl

theorem mem_noticeWrites {notices : List (String × Option Int)}
    {e : CommandWrite} (h : e ∈ noticeWrites agentID notices table) :
    table.lookup e.key = some e.read ∧ e.read.status.acceptsResults = true ∧
      e = flushed e.key e.read (notePending agentID notices e.key e.read) ∧
      (e.edit e.read).status = .resultPending := by
  obtain ⟨⟨id, row⟩, hmem, rfl⟩ := List.mem_map.mp h
  obtain ⟨hlook, hnoticed⟩ := mem_rowsWhere.mp hmem
  obtain ⟨haccepts, hstatus⟩ := notePending_of_noticed hnoticed
  exact ⟨hlook, haccepts, rfl, (flushRow_status rfl).trans hstatus⟩

/-- The loop makes a row dispatched or expired. -/
theorem handOut_status {now : Int} {room : Nat}
    {rows : List (String × CommandRow)} {e : String × CommandRow}
    (h : e ∈ handOut now room rows) :
    (e.2.status = .dispatched ∨ e.2.status = .expired) ∧
      ∃ old, (e.1, old) ∈ rows := by
  refine ⟨?_, (mem_handOut h).2⟩
  induction rows generalizing room with
  | nil =>
      rw [handOut] at h
      cases h
  | cons r rest ih =>
      obtain ⟨id, row⟩ := r
      cases room with
      | zero =>
          rw [handOut] at h
          · cases h
          · intro h'
            cases h'
      | succ room =>
          rw [handOut] at h
          split at h
          · rcases List.mem_cons.mp h with rfl | h
            · exact .inr rfl
            · exact ih h
          · rcases List.mem_cons.mp h with rfl | h
            · exact .inl rfl
            · exact ih h

/-- A row that is handed out or expires is queued or dispatched, and the
notices say nothing of it. -/
theorem mem_heartbeatChanges {settings : Settings} {version : String}
    {now : Int} {notices : List (String × Option Int)}
    {e : String × CommandRow}
    (h : e ∈ heartbeatChanges settings agentID version now notices table) :
    (e.2.status = .dispatched ∨ e.2.status = .expired) ∧
      ∃ row, table.lookup e.1 = some row ∧ (row.status = .queued ∨
        (row.status = .dispatched ∧ notices.lookup e.1 = none)) := by
  obtain ⟨hstatus, old, hold⟩ := handOut_status h
  refine ⟨hstatus, ?_⟩
  rw [selectDeliverable, List.mem_insertionSort, List.mem_filter] at hold
  obtain ⟨hmem, hdeliverable⟩ := hold
  obtain ⟨⟨k, r⟩, hentry, heq⟩ := List.mem_map.mp hmem
  cases heq
  have hlook := AList.mem_lookup_iff.mpr hentry
  rw [StrMap.lookup_mapValues] at hlook
  obtain ⟨row, hrow, hnoted⟩ := Option.map_eq_some_iff.mp hlook
  simp only [deliverable, Bool.and_eq_true, Bool.or_eq_true,
    decide_eq_true_eq] at hdeliverable
  obtain ⟨⟨hagent, hready⟩, -⟩ := hdeliverable
  refine ⟨row, hrow, ?_⟩
  by_cases haccepts : row.agentID = agentID ∧ row.status.acceptsResults = true
  · rw [notePending, if_pos haccepts] at hnoted
    split at hnoted
    · next hnone =>
        rw [← hnoted] at hready
        exact hready.imp_right fun hd => ⟨hd.1, hnone⟩
    · rw [← hnoted] at hready
      rcases hready with hq | ⟨hd, -⟩
      · cases hq
      · cases hd
  · rw [notePending, if_neg haccepts] at hnoted
    rw [← hnoted] at hready hagent
    rcases hready with hq | ⟨hd, -⟩
    · exact .inl hq
    · rw [hd] at haccepts
      exact absurd ⟨hagent, rfl⟩ haccepts

theorem mem_handOutWrites {settings : Settings} {version : String}
    {now : Int} {notices : List (String × Option Int)} {e : CommandWrite}
    (h : e ∈ handOutWrites
      (heartbeatChanges settings agentID version now notices table) table) :
    table.lookup e.key = some e.read ∧
      (e.read.status = .queued ∨
        (e.read.status = .dispatched ∧ notices.lookup e.key = none)) ∧
      (∃ new, e = flushed e.key e.read new) ∧
      ((e.edit e.read).status = .dispatched ∨
        (e.edit e.read).status = .expired) := by
  obtain ⟨⟨id, new⟩, hmem, hflushed⟩ := List.mem_filterMap.mp h
  obtain ⟨row, hrow, rfl⟩ := Option.map_eq_some_iff.mp hflushed
  obtain ⟨hstatus, row', hrow', hread⟩ := mem_heartbeatChanges hmem
  obtain rfl := Option.some.inj (hrow.symm.trans hrow')
  refine ⟨hrow, hread, ⟨new, rfl⟩, ?_⟩
  have hnew : ((flushed id row new).edit row).status = new.status :=
    flushRow_status rfl
  exact hnew.symm ▸ hstatus

theorem measured_notices {notices : List (String × Option Int)}
    {e : CommandWrite} (h : e ∈ noticeWrites agentID notices table) :
    e.read.status.recorded = false ∧
      (∀ row : CommandRow, row.status = e.read.status →
        (e.edit row).status = (e.edit e.read).status) ∧
      (e.edit e.read).status = .resultPending := by
  obtain ⟨-, haccepts, heq, hstatus⟩ := mem_noticeWrites h
  refine ⟨?_, fun row hrow => ?_, hstatus⟩
  · cases hread : e.read.status with
    | succeeded | failed =>
        rw [hread] at haccepts
        cases haccepts
    | queued | dispatched | running | resultPending | expired => rfl
  · rw [heq] at hrow ⊢
    exact flushed_same hrow

theorem measured_handOuts {settings : Settings} {version : String}
    {now : Int} {notices : List (String × Option Int)} {e : CommandWrite}
    (h : e ∈ handOutWrites
      (heartbeatChanges settings agentID version now notices table) table) :
    e.read.status.recorded = false ∧
      (∀ row : CommandRow, row.status = e.read.status →
        (e.edit row).status = (e.edit e.read).status) ∧
      (e.edit e.read).status ≠ .queued := by
  obtain ⟨-, hread, ⟨new, heq⟩, hstatus⟩ := mem_handOutWrites h
  refine ⟨?_, fun row hrow => ?_, ?_⟩
  · rcases hread with hq | ⟨hd, -⟩
    · rw [hq]
      rfl
    · rw [hd]
      rfl
  · rw [heq] at hrow ⊢
    exact flushed_same hrow
  · rcases hstatus with hd | hx
    · rw [hd]
      intro h'
      cases h'
    · rw [hx]
      intro h'
      cases h'

/-- A command that is handed out is one whose row is written. -/
theorem handed_written {settings : Settings} {version : String}
    {now : Int} {notices : List (String × Option Int)} {cmd : Command}
    (h : cmd ∈ ((heartbeatChanges settings agentID version now notices
      table).filter fun e => decide (e.2.status = .dispatched)).map commandOut) :
    ∃ e ∈ handOutWrites (heartbeatChanges settings agentID version now notices
      table) table, e.key = cmd.id := by
  obtain ⟨⟨id, new⟩, hmem, rfl⟩ := List.mem_map.mp h
  have hchanged := (List.mem_filter.mp hmem).1
  obtain ⟨-, row, hrow, -⟩ := mem_heartbeatChanges hchanged
  exact ⟨flushed id row new, List.mem_filterMap.mpr ⟨(id, new), hchanged, by
    rw [hrow]
    rfl⟩, rfl⟩

theorem heartbeatTxn_current {settings : Settings} {trust : AgentTrustState}
    {now : Int} {body : HeartbeatIn} {e : CommandWrite}
    (h : e ∈ (heartbeatTxn settings agentID trust now body table).writes) :
    table.lookup e.key = some e.read ∧ ∀ row, e.guard row = true := by
  have hnotice : e ∈ noticeWrites agentID body.pendingResults table →
      table.lookup e.key = some e.read ∧ ∀ row, e.guard row = true := by
    intro he
    obtain ⟨hlook, -, heq, -⟩ := mem_noticeWrites he
    exact ⟨hlook, fun row => by
      rw [heq]
      rfl⟩
  rw [heartbeatTxn] at h
  split at h
  · exact absurd h List.not_mem_nil
  · split at h
    · exact absurd h List.not_mem_nil
    · split at h
      · exact hnotice h
      · rcases List.mem_append.mp h with he | he
        · exact hnotice he
        · obtain ⟨hlook, -, ⟨new, heq⟩, -⟩ := mem_handOutWrites he
          exact ⟨hlook, fun row => by
            rw [heq]
            rfl⟩

theorem submitTxn_current {trust : AgentTrustState} {now : Int}
    {commandID : String} {r : CommandResult} {e : CommandWrite}
    (h : e ∈ (submitTxn agentID trust now commandID r table).writes) :
    table.lookup e.key = some e.read ∧ ∀ row, e.guard row = true := by
  rw [submitTxn] at h
  split at h
  · exact absurd h List.not_mem_nil
  · split at h
    · exact absurd h List.not_mem_nil
    · split at h
      · exact absurd h List.not_mem_nil
      · split at h
        · exact absurd h List.not_mem_nil
        · next row hrow =>
            split at h
            · split at h
              · exact absurd h List.not_mem_nil
              · exact absurd h List.not_mem_nil
            · split at h
              · exact absurd h List.not_mem_nil
              · cases List.mem_singleton.mp h
                exact ⟨(Option.filter_eq_some_iff.mp hrow).1, fun _ => rfl⟩

theorem measured_heartbeat {settings : Settings} {trust : AgentTrustState}
    {now : Int} {body : HeartbeatIn} :
    Measured (heartbeatTxn settings agentID trust now body table) := by
  rw [heartbeatTxn]
  split
  · exact measured_empty
  · split
    · refine ⟨?_, ?_, ?_, ?_, ?_⟩
      · exact fun _ he => absurd he List.not_mem_nil
      · exact fun _ he => absurd he List.not_mem_nil
      · exact fun _ he => absurd he List.not_mem_nil
      · intro notices cmds hn cmd hcmd
        cases List.mem_singleton.mp hn
        exact absurd hcmd List.not_mem_nil
      · exact fun _ _ _ _ he => absurd he List.not_mem_nil
    · split
      · refine ⟨?_, ?_, ?_, ?_, ?_⟩
        · exact fun e he => (measured_notices he).1
        · exact fun e he => (measured_notices he).2.1
        · intro e he
          rw [(measured_notices he).2.2]
          intro h'
          cases h'
        · intro notices cmds hn cmd hcmd
          cases List.mem_singleton.mp hn
          exact absurd hcmd List.not_mem_nil
        · intro notices cmds hn e he hexpired
          rw [(measured_notices he).2.2] at hexpired
          cases hexpired
      · refine ⟨?_, ?_, ?_, ?_, ?_⟩
        · intro e he
          rcases List.mem_append.mp he with he | he
          · exact (measured_notices he).1
          · exact (measured_handOuts he).1
        · intro e he
          rcases List.mem_append.mp he with he | he
          · exact (measured_notices he).2.1
          · exact (measured_handOuts he).2.1
        · intro e he
          rcases List.mem_append.mp he with he | he
          · rw [(measured_notices he).2.2]
            intro h'
            cases h'
          · exact (measured_handOuts he).2.2
        · intro notices cmds hn cmd hcmd
          cases List.mem_singleton.mp hn
          obtain ⟨e, he, hkey⟩ := handed_written hcmd
          exact ⟨e, List.mem_append_right _ he, hkey⟩
        · intro notices cmds hn e he hexpired
          cases List.mem_singleton.mp hn
          rcases List.mem_append.mp he with he | he
          · rw [(measured_notices he).2.2] at hexpired
            cases hexpired
          · exact (mem_handOutWrites he).2.1

theorem measured_submit {trust : AgentTrustState} {now : Int}
    {commandID : String} {r : CommandResult} :
    Measured (submitTxn agentID trust now commandID r table) := by
  rw [submitTxn]
  split
  · exact measured_empty
  · split
    · exact measured_empty
    · split
      · exact measured_empty
      · split
        · exact measured_empty
        · next row hrow =>
            split
            · split
              · refine ⟨?_, ?_, ?_, ?_, ?_⟩
                · exact fun _ he => absurd he List.not_mem_nil
                · exact fun _ he => absurd he List.not_mem_nil
                · exact fun _ he => absurd he List.not_mem_nil
                · intro notices cmds hn
                  cases List.mem_singleton.mp hn
                · intro notices cmds hn
                  cases List.mem_singleton.mp hn
              · exact measured_empty
            · next hunrecorded =>
                split
                · exact measured_empty
                · refine ⟨?_, ?_, ?_, ?_, ?_⟩
                  · intro e he
                    cases List.mem_singleton.mp he
                    exact Bool.eq_false_iff.mpr hunrecorded
                  · intro e he row' _
                    cases List.mem_singleton.mp he
                    rfl
                  · intro e he
                    cases List.mem_singleton.mp he
                    show (ite _ _ _ : CommandStatus) ≠ _
                    split
                    · intro h'
                      cases h'
                    · intro h'
                      cases h'
                  · intro notices cmds hn
                    cases List.mem_singleton.mp hn
                  · intro notices cmds hn
                    cases List.mem_singleton.mp hn

theorem measured_revoke : Measured (revokeTxn agentID table) := by
  have hwrite : ∀ e ∈ (revokeTxn agentID table).writes,
      (e.read.status = .queued ∨ e.read.status.acceptsResults = true) ∧
        (∃ new, e = flushed e.key e.read new) ∧
        (e.edit e.read).status = .expired := by
    intro e he
    obtain ⟨⟨id, row⟩, hmem, rfl⟩ := List.mem_map.mp he
    have hrow := (mem_rowsWhere.mp hmem).2
    simp only [Bool.and_eq_true, Bool.or_eq_true, decide_eq_true_eq] at hrow
    refine ⟨hrow.2, ⟨_, rfl⟩, ?_⟩
    have hnew : (expireOnRevoke agentID row).status = .expired := by
      rw [expireOnRevoke, if_pos hrow]
    exact (flushRow_status rfl).trans hnew
  refine ⟨?_, ?_, ?_, ?_, ?_⟩
  · intro e he
    obtain ⟨hread, -⟩ := hwrite e he
    cases hs : e.read.status with
    | succeeded | failed =>
        rw [hs] at hread
        rcases hread with hq | ha
        · cases hq
        · cases ha
    | queued | dispatched | running | resultPending | expired => rfl
  · intro e he row hrow
    obtain ⟨-, ⟨new, heq⟩, -⟩ := hwrite e he
    rw [heq] at hrow ⊢
    exact flushed_same hrow
  · intro e he
    rw [(hwrite e he).2.2]
    intro h'
    cases h'
  · intro notices cmds hn
    cases List.mem_singleton.mp hn
  · intro notices cmds hn
    cases List.mem_singleton.mp hn

end Writes

end NodeLink.Proofs
