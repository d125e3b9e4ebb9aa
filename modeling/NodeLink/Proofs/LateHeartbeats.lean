import NodeLink.Proofs.CommandTxns

/-!
# Recorded results under requests that commit late

A heartbeat and a revocation write back rows they have read without holding
them. As long as each finds the status it read, no commit touches a recorded
row. A heartbeat may still expire a command that has been started, when it
does not know of the start: its notices were made before, or left it out. One
whose notices name every start that the agent's journal holds as unfinished
or unacknowledged does not.
-/

namespace NodeLink.Proofs

open Lib Agent Server

/-- The notices name every command that the journal holds as running, or as
finished without an acknowledgement. -/
def Reports (journal : SeenStore) (notices : List (String × Option Int)) :
    Prop :=
  ∀ id entry, journal.lookup id = some entry →
    entry.state = some .executing ∨ entry.state = some .resultPending →
    (notices.lookup id).isSome = true

/-- The commit finds the rows as they were read, and a heartbeat that expires
a dispatched command reports all that the journal holds. -/
structure InOrder (w : AgentWorld) (sv : LateServer) (t : Nat) : Prop where
  unchanged : ∀ e ∈ (sv.txns t).writes, e.key ∉ (sv.txns t).held →
    ∀ row, sv.table.lookup e.key = some row → row.status = e.read.status
  complete : ∀ notices cmds,
    ServerNote.handedOut notices cmds ∈ (sv.txns t).inserts →
    (∃ e ∈ (sv.txns t).writes, e.read.status = .dispatched ∧
      (e.edit e.read).status = .expired) → Reports w.disk notices

/-! ## The server's rows -/

/-- A promise to accept an upload: the row records a result already, or the
transaction does nothing but record one. -/
def Pledged (table : CommandTable) (txn : CommandTxn) : Prop :=
  ∀ id r, ServerNote.accepted id r ∈ txn.inserts →
    (∃ row, table.lookup id = some row ∧ row.status.recorded = true) ∨
      ∃ e, txn.writes = [e] ∧ e.key = id ∧
        ∀ row, (e.edit row).status.recorded = true

/-- What holds of the server in a run whose commits are in order. -/
structure Kept (sv : LateServer) : Prop where
  held : sv.store.Held
  measured : ∀ t, Measured (sv.txns t)
  present : ∀ t, ∀ e ∈ (sv.txns t).writes,
    ∃ row, sv.table.lookup e.key = some row
  pledged : ∀ t, Pledged sv.table (sv.txns t)
  uuids : ∀ id row, sv.table.lookup id = some row → hasNoncePrefix id = false
  accepted : ∀ id r, ServerNote.accepted id r ∈ sv.notes →
    ∃ row, sv.table.lookup id = some row ∧ row.status.recorded = true
  handed : ∀ notices cmds, ServerNote.handedOut notices cmds ∈ sv.notes →
    ∀ cmd ∈ cmds, ∃ row, sv.table.lookup cmd.id = some row ∧
      row.status ≠ .queued

section Commits

variable {w : AgentWorld} {sv : LateServer} {t : Nat} {id : String}
variable {row : CommandRow}

theorem lookup_commit (id : String) : (sv.commit t).table.lookup id =
    RowStore.written (sv.txns t).writes sv.table.lookup id := by
  have hstore := congrArg RowStore.table (sv.commit_store t)
  exact congrFun hstore id

/-- What a commit in order leaves of a row: the row, or one that was changed
from the status that was read. -/
theorem commit_row (h : Kept sv) (hin : InOrder w sv t)
    (hlook : sv.table.lookup id = some row) :
    (sv.commit t).table.lookup id = some row ∨
      ∃ e ∈ (sv.txns t).writes, e.key = id ∧ row.status = e.read.status ∧
        (sv.commit t).table.lookup id = some (e.edit row) := by
  rw [lookup_commit, RowStore.written]
  split
  · next e he =>
      obtain ⟨hmem, rfl⟩ := RowStore.find_key he
      refine .inr ⟨e, hmem, rfl, ?_, ?_⟩
      · by_cases hheld : e.key ∈ (sv.txns t).held
        · have hread : sv.table.lookup e.key = some e.read :=
            h.held.fresh t e hmem hheld
          rw [Option.some.inj (hlook.symm.trans hread)]
        · exact hin.unchanged e hmem hheld row hlook
      · rw [hlook]
        rfl
  · exact .inl hlook

theorem commit_recorded (h : Kept sv) (hin : InOrder w sv t)
    (hlook : sv.table.lookup id = some row)
    (hrow : row.status.recorded = true) :
    (sv.commit t).table.lookup id = some row := by
  rcases commit_row h hin hlook with hsame | ⟨e, he, -, hread, -⟩
  · exact hsame
  · have hunrecorded := (h.measured t).unrecorded e he
    rw [← hread, hrow] at hunrecorded
    cases hunrecorded

theorem commit_unqueued (h : Kept sv) (hin : InOrder w sv t)
    (hlook : sv.table.lookup id = some row) (hrow : row.status ≠ .queued) :
    ∃ row', (sv.commit t).table.lookup id = some row' ∧
      row'.status ≠ .queued := by
  rcases commit_row h hin hlook with hsame | ⟨e, he, -, hread, hedited⟩
  · exact ⟨row, hsame, hrow⟩
  · refine ⟨_, hedited, ?_⟩
    rw [(h.measured t).same e he row hread]
    exact (h.measured t).moves e he

theorem commit_present (hlook : ∃ row, sv.table.lookup id = some row) :
    ∃ row, (sv.commit t).table.lookup id = some row := by
  obtain ⟨row, hrow⟩ := hlook
  rw [lookup_commit, RowStore.written]
  split
  · next e he =>
      rw [hrow]
      exact ⟨_, rfl⟩
  · exact ⟨row, hrow⟩

theorem kept_commit (h : Kept sv) (hin : InOrder w sv t)
    (hcommits : sv.store.Commits t) : Kept (sv.commit t) := by
  have hself : (sv.commit t).txns t = {} := Function.update_self ..
  have hother : ∀ u, u ≠ t → (sv.commit t).txns u = sv.txns u :=
    fun u hu => Function.update_of_ne hu ..
  refine ⟨?_, fun u => ?_, fun u e he => ?_, fun u => ?_, ?_, ?_, ?_⟩
  · rw [sv.commit_store t]
    exact h.held.commit hcommits
  · by_cases hu : u = t
    · rw [hu, hself]
      exact measured_empty
    · rw [hother u hu]
      exact h.measured u
  · by_cases hu : u = t
    · rw [hu, hself] at he
      exact absurd he List.not_mem_nil
    · rw [hother u hu] at he
      exact commit_present (h.present u e he)
  · intro id r hr
    by_cases hu : u = t
    · rw [hu, hself] at hr
      exact absurd hr List.not_mem_nil
    · rw [hother u hu] at hr ⊢
      refine (h.pledged u id r hr).imp_left ?_
      intro ⟨row, hlook, hrow⟩
      exact ⟨row, commit_recorded h hin hlook hrow, hrow⟩
  · intro id row hlook
    rw [lookup_commit] at hlook
    rcases RowStore.written_eq_some hlook with ⟨e, -, -, old, hold, -⟩ | hold
    · exact h.uuids id old hold
    · exact h.uuids id row hold
  · intro id r hr
    rcases List.mem_append.mp hr with hold | hnew
    · obtain ⟨row, hlook, hrow⟩ := h.accepted id r hold
      exact ⟨row, commit_recorded h hin hlook hrow, hrow⟩
    · rcases h.pledged t id r hnew with ⟨row, hlook, hrow⟩ | ⟨e, hwrites, rfl, he⟩
      · exact ⟨row, commit_recorded h hin hlook hrow, hrow⟩
      · obtain ⟨row, hlook⟩ := h.present t e (hwrites ▸ List.mem_singleton_self _)
        refine ⟨e.edit row, ?_, he row⟩
        rw [lookup_commit, RowStore.written, hwrites]
        simp [hlook]
  · intro notices cmds hn cmd hcmd
    rcases List.mem_append.mp hn with hold | hnew
    · obtain ⟨row, hlook, hrow⟩ := h.handed notices cmds hold cmd hcmd
      exact commit_unqueued h hin hlook hrow
    · obtain ⟨e, he, hkey⟩ := (h.measured t).handed notices cmds hnew cmd hcmd
      obtain ⟨row, hlook⟩ := h.present t e he
      rw [hkey] at hlook
      rw [lookup_commit, RowStore.written]
      split
      · next e' he' =>
          obtain ⟨hmem, hkey'⟩ := RowStore.find_key he'
          rw [hlook]
          refine ⟨e'.edit row, rfl, ?_⟩
          have hread : row.status = e'.read.status := by
            by_cases hheld : e'.key ∈ (sv.txns t).held
            · have hfresh : sv.table.lookup e'.key = some e'.read :=
                h.held.fresh t e' hmem hheld
              rw [hkey'] at hfresh
              rw [Option.some.inj (hlook.symm.trans hfresh)]
            · exact hin.unchanged e' hmem hheld row (hkey' ▸ hlook)
          rw [(h.measured t).same e' hmem row hread]
          exact (h.measured t).moves e' hmem
      · next hnone =>
          have hno := List.find?_eq_none.mp hnone e he
          exact absurd hkey (by simpa using hno)

end Commits

/-! ## Steps of the server -/

section Steps

variable {settings : Settings} {agentID : String} {w : AgentWorld}
variable {sv sv' : LateServer}

theorem read_store {t : Nat} {txn : CommandTxn} (hidle : sv.txns t = {}) :
    (sv.read t txn).store = sv.store.read t txn := by
  have hempty : sv.store.txns t = {} := hidle
  rw [RowStore.read, RowStore.setTxn, hempty]
  rfl

theorem rollback_store {t : Nat} :
    (sv.rollback t).store = sv.store.abort t := rfl

theorem newCommand_store {id : String} {row : CommandRow} :
    (sv.newCommand id row).store = sv.store.create id row := by
  have htable : (sv.newCommand id row).table.lookup =
      Function.update sv.table.lookup id (some row) := by
    funext k
    by_cases hk : k = id
    · rw [hk, Function.update_self]
      exact AList.lookup_insert _
    · rw [Function.update_of_ne hk]
      exact AList.lookup_insert_ne hk
  rw [LateServer.store, htable]
  rfl

theorem kept_read (h : Kept sv) {t : Nat} {txn : CommandTxn}
    (hidle : sv.txns t = {}) (hreads : sv.store.Reads t txn)
    (hmeasured : Measured txn) (hpledged : Pledged sv.table txn) :
    Kept (sv.read t txn) := by
  have hself : (sv.read t txn).txns t = txn := Function.update_self ..
  have hother : ∀ u, u ≠ t → (sv.read t txn).txns u = sv.txns u :=
    fun u hu => Function.update_of_ne hu ..
  refine ⟨?_, fun u => ?_, fun u e he => ?_, fun u => ?_, h.uuids, h.accepted,
    h.handed⟩
  · rw [read_store hidle]
    exact h.held.read hreads
  · by_cases hu : u = t
    · rw [hu, hself]
      exact hmeasured
    · rw [hother u hu]
      exact h.measured u
  · by_cases hu : u = t
    · rw [hu, hself] at he
      exact ⟨e.read, hreads.current e he⟩
    · rw [hother u hu] at he
      exact h.present u e he
  · by_cases hu : u = t
    · rw [hu, hself]
      exact hpledged
    · rw [hother u hu]
      exact h.pledged u

theorem kept_rollback (h : Kept sv) {t : Nat} : Kept (sv.rollback t) := by
  have hself : (sv.rollback t).txns t = {} := Function.update_self ..
  have hother : ∀ u, u ≠ t → (sv.rollback t).txns u = sv.txns u :=
    fun u hu => Function.update_of_ne hu ..
  refine ⟨?_, fun u => ?_, fun u e he => ?_, fun u => ?_, h.uuids, h.accepted,
    h.handed⟩
  · rw [rollback_store]
    exact h.held.abort
  · by_cases hu : u = t
    · rw [hu, hself]
      exact measured_empty
    · rw [hother u hu]
      exact h.measured u
  · by_cases hu : u = t
    · rw [hu, hself] at he
      exact absurd he List.not_mem_nil
    · rw [hother u hu] at he
      exact h.present u e he
  · by_cases hu : u = t
    · rw [hu, hself]
      exact fun _ _ hr => absurd hr List.not_mem_nil
    · rw [hother u hu]
      exact h.pledged u

theorem kept_dispatch (h : Kept sv) {id : String} {row : CommandRow}
    (hfresh : sv.table.lookup id = none) (huuid : hasNoncePrefix id = false) :
    Kept (sv.newCommand id row) := by
  have hold : ∀ k old, sv.table.lookup k = some old →
      (sv.newCommand id row).table.lookup k = some old := by
    intro k old hlook
    have hk : k ≠ id := by
      intro hk
      rw [hk, hfresh] at hlook
      cases hlook
    exact (AList.lookup_insert_ne hk).trans hlook
  refine ⟨?_, h.measured, fun u e he => ?_, fun u => ?_, ?_, ?_, ?_⟩
  · rw [newCommand_store]
    exact h.held.create hfresh
  · obtain ⟨old, hlook⟩ := h.present u e he
    exact ⟨old, hold _ _ hlook⟩
  · intro k r hr
    refine (h.pledged u k r hr).imp_left ?_
    intro ⟨old, hlook, hrec⟩
    exact ⟨old, hold _ _ hlook, hrec⟩
  · intro k new hlook
    by_cases hk : k = id
    · rw [hk]
      exact huuid
    · exact h.uuids k new ((AList.lookup_insert_ne hk).symm.trans hlook)
  · intro k r hr
    obtain ⟨old, hlook, hrec⟩ := h.accepted k r hr
    exact ⟨old, hold _ _ hlook, hrec⟩
  · intro notices cmds hn cmd hcmd
    obtain ⟨old, hlook, hst⟩ := h.handed notices cmds hn cmd hcmd
    exact ⟨old, hold _ _ hlook, hst⟩

theorem pledged_heartbeat {trust : AgentTrustState} {now : Int}
    {body : HeartbeatIn} :
    Pledged sv.table (heartbeatTxn settings agentID trust now body sv.table) := by
  intro id r hr
  rw [heartbeatTxn] at hr
  split at hr
  · exact absurd hr List.not_mem_nil
  · split at hr
    · cases List.mem_singleton.mp hr
    · split at hr
      · cases List.mem_singleton.mp hr
      · cases List.mem_singleton.mp hr

theorem pledged_submit {trust : AgentTrustState} {now : Int}
    {commandID : String} {r : CommandResult} :
    Pledged sv.table (submitTxn agentID trust now commandID r sv.table) := by
  intro id r' hr
  rw [submitTxn] at hr ⊢
  split at hr
  · exact absurd hr List.not_mem_nil
  · next htrust =>
      split at hr
      · exact absurd hr List.not_mem_nil
      · next hvalid =>
          split at hr
          · exact absurd hr List.not_mem_nil
          · next hactive =>
              split at hr
              · exact absurd hr List.not_mem_nil
              · next row hrow =>
                  have hlook := (Option.filter_eq_some_iff.mp hrow).1
                  split at hr
                  · next hrec =>
                      split at hr
                      · cases List.mem_singleton.mp hr
                        exact .inl ⟨row, hlook, hrec⟩
                      · exact absurd hr List.not_mem_nil
                  · next hunrec =>
                      split at hr
                      · exact absurd hr List.not_mem_nil
                      · next haccepts =>
                          cases List.mem_singleton.mp hr
                          rw [if_neg htrust, if_neg hvalid, if_neg hactive,
                            if_neg hunrec, if_neg haccepts]
                          refine .inr ⟨_, rfl, rfl, fun row' => ?_⟩
                          show CommandStatus.recorded (ite _ _ _) = true
                          split
                          · rfl
                          · rfl

theorem pledged_revoke : Pledged sv.table (revokeTxn agentID sv.table) := by
  intro id r hr
  cases List.mem_singleton.mp hr

theorem kept_step (h : Kept sv)
    (hs : LateStep settings agentID InOrder w sv sv') : Kept sv' := by
  cases hs with
  | dispatch hfresh huuid => exact kept_dispatch h hfresh huuid
  | heartbeat hsent hidle hreads =>
      exact kept_read h hidle hreads measured_heartbeat pledged_heartbeat
  | submit hsent hidle hreads =>
      exact kept_read h hidle hreads measured_submit pledged_submit
  | revoke htrust hidle hreads =>
      exact kept_read h hidle hreads measured_revoke pledged_revoke
  | commit hcommits hin => exact kept_commit h hin hcommits
  | rollback => exact kept_rollback h
  | trust =>
      exact ⟨h.held, h.measured, h.present, h.pledged, h.uuids, h.accepted,
        h.handed⟩

/-- A recorded row stays as it is. -/
theorem late_recorded_stays (h : Kept sv)
    (hs : LateStep settings agentID InOrder w sv sv') {id : String}
    {row : CommandRow} (hlook : sv.table.lookup id = some row)
    (hrow : row.status.recorded = true) : sv'.table.lookup id = some row := by
  cases hs with
  | @dispatch id' owner envelope createdAt expiresAt hfresh huuid =>
      have hne : id ≠ id' := by
        intro hid
        rw [hid, hfresh] at hlook
        cases hlook
      exact (AList.lookup_insert_ne hne).trans hlook
  | commit hcommits hin => exact commit_recorded h hin hlook hrow
  | heartbeat | submit | revoke | rollback | trust => exact hlook

theorem late_notes (hs : LateStep settings agentID InOrder w sv sv') :
    ∀ n ∈ sv.notes, n ∈ sv'.notes := by
  cases hs with
  | commit => exact fun n hn => List.mem_append_left _ hn
  | dispatch | heartbeat | submit | revoke | rollback | trust =>
      exact fun n hn => hn

end Steps

/-! ## The agent's side -/

section Agent

variable {Key : Type} {ed25519Verify : Key → Bytes → Bytes → Bool}
  {sg : Signer ed25519Verify} {w w' w₀ : AgentWorld}

/-- Commands that are started, or about to be, have been received. -/
def StartsReceived : AgentWorld × Phase → Prop
  | (w, ph) => (∀ cmd ∈ w.started, cmd ∈ w.received) ∧
    match ph with
    | .reserved _ cmd | .armed _ cmd => cmd ∈ w.received
    | _ => True

theorem startsReceived_step (c c' : AgentWorld × Phase) (h : StartsReceived c)
    (hs : Protocol.Step sg c c') : StartsReceived c' := by
  cases hs with
  | tick | send | answered | beat => exact h
  | halt | load | undisturbed | recorded | unrecorded | prune =>
      exact ⟨h.1, trivial⟩
  | receive =>
      rename_i w ph cmds
      refine ⟨fun cmd hcmd => List.mem_append_right _ (h.1 cmd hcmd), ?_⟩
      cases ph with
      | reserved | armed => exact List.mem_append_right _ h.2
      | down | loaded | quiet | ran => trivial
  | start =>
      refine ⟨fun cmd hcmd => ?_, trivial⟩
      rcases List.mem_cons.mp hcmd with rfl | hold
      · exact h.2
      · exact h.1 cmd hold
  | finish =>
      refine ⟨fun cmd hcmd => ?_, trivial⟩
      rcases List.mem_cons.mp hcmd with rfl | hold
      · exact h.2
      · exact h.1 cmd hold
  | saved he =>
      cases he with
      | reserve hreceived => exact ⟨h.1, hreceived⟩
      | arm => exact h
      | rewrite | acknowledge | requeue => exact ⟨h.1, trivial⟩
  | unsaved he => exact h

theorem started_received (h₀ : Installed w₀)
    {p : Proc AgentOp (AgentOp.Ans Key) (Session Key)}
    (hrun : AgentRun sg (w₀, .down) (w, p)) :
    ∀ cmd ∈ w.started, cmd ∈ w.received := by
  have hstart : StartsReceived (w₀, .down) := by
    obtain ⟨clock, rfl⟩ := h₀
    exact ⟨fun cmd hcmd => absurd hcmd List.not_mem_nil, trivial⟩
  have hend : StartsReceived (w, .down) :=
    invariant_of_steps (I := StartsReceived) startsReceived_step hstart
      (agentRun_refines hrun).1
  exact hend.1

/-- What is underway is what a crash may leave. -/
theorem agentRun_underway
    (p : Proc AgentOp (AgentOp.Ans Key) (Session Key)) :
    AgentRun sg (w, p) (underway w p, .down) := by
  cases p with
  | down | idle => exact .single .crash
  | busy prog =>
      cases prog with
      | pure => exact .single .crash
      | act o k =>
          cases o with
          | heartbeat notices =>
              exact .single (.tear (show agentTorn w (.heartbeat notices) _ from rfl))
          | report id result =>
              exact .single (.tear (show agentTorn w (.report id result) _ from rfl))
          | execute cmd =>
              exact .single (.tear (show agentTorn w (.execute cmd) _ from rfl))
          | now | identity | load | save => exact .single .crash

theorem underway_told (p : Proc AgentOp (AgentOp.Ans Key) (Session Key)) :
    (underway w p).acked = w.acked ∧ (underway w p).received = w.received := by
  cases p with
  | down | idle => exact ⟨rfl, rfl⟩
  | busy prog =>
      cases prog with
      | pure => exact ⟨rfl, rfl⟩
      | act o k => cases o <;> exact ⟨rfl, rfl⟩

theorem agentTorn_told {o : AgentOp} (h : agentTorn w o w') :
    w'.acked = w.acked ∧ w'.received = w.received := by
  cases o with
  | save | heartbeat | report | execute =>
      obtain rfl : w' = _ := h
      exact ⟨rfl, rfl⟩
  | now | identity | load => exact h.elim

end Agent

/-! ## Runs -/

section Runs

variable {Key : Type} {ed25519Verify : Key → Bytes → Bytes → Bool}
  {settings : Settings} {agentID : String} {sg : Signer ed25519Verify}
  {w w' w₀ : AgentWorld} {sv sv' : LateServer}

theorem Told.later (h : Told w sv) (hacked : w'.acked = w.acked)
    (hreceived : w'.received = w.received)
    (hnotes : ∀ n ∈ sv.notes, n ∈ sv'.notes) : Told w' sv' := by
  constructor
  · intro p hp
    exact hnotes _ (h.acks p (hacked ▸ hp))
  · intro cmd hcmd
    obtain ⟨notices, cmds, hn, hmem⟩ := h.commands cmd (hreceived ▸ hcmd)
    exact ⟨notices, cmds, hnotes _ hn, hmem⟩

/-- What holds of the whole system in a run in order. -/
structure Timely (sg : Signer ed25519Verify) (w₀ : AgentWorld)
    (c : LateState Key) : Prop where
  reach : AgentRun sg (w₀, .down) (c.1.1, c.2)
  kept : Kept c.1.2
  told : Told c.1.1 c.1.2

theorem timely_step (c c' : LateState Key) (h : Timely sg w₀ c)
    (hs : LateSystemStep settings agentID InOrder sg c c') :
    Timely sg w₀ c' := by
  cases hs with
  | @server w sv sv' p hstep =>
      exact ⟨h.reach, kept_step h.kept hstep,
        Told.later h.told rfl rfl (late_notes hstep)⟩
  | agent hagent =>
      cases hagent with
      | boot => exact ⟨h.reach.tail .boot, h.kept, h.told⟩
      | start hp => exact ⟨h.reach.tail (.start hp), h.kept, h.told⟩
      | settle => exact ⟨h.reach.tail .settle, h.kept, h.told⟩
      | stop => exact ⟨h.reach.tail .stop, h.kept, h.told⟩
      | crash => exact ⟨h.reach.tail .crash, h.kept, h.told⟩
      | act hd =>
          obtain ⟨hdo, hserved, htold⟩ := hd
          refine ⟨h.reach.tail (.act hdo), ?_, htold⟩
          exact invariant_of_steps (I := Kept)
            (fun _ _ hi hst => kept_step hi hst) h.kept hserved
      | tear ht =>
          obtain ⟨htorn, hsv⟩ := ht
          obtain ⟨hacked, hreceived⟩ := agentTorn_told htorn
          refine ⟨h.reach.tail (.tear htorn), hsv ▸ h.kept, ?_⟩
          exact Told.later h.told hacked hreceived (hsv ▸ fun n hn => hn)

/-- The system at the start: an agent just installed, an empty table. -/
def lateStart (w₀ : AgentWorld) : LateState Key := ((w₀, {}), .down)

theorem timely_start (h₀ : Installed w₀) :
    Timely sg w₀ (lateStart w₀ : LateState Key) := by
  obtain ⟨clock, rfl⟩ := h₀
  have hempty : ∀ id row, (∅ : CommandTable).lookup id ≠ some row := by
    intro id row hlook
    rw [AList.lookup_empty] at hlook
    cases hlook
  refine ⟨Relation.ReflTransGen.refl, ?_, ?_⟩
  · refine ⟨⟨?_, ?_⟩, fun _ => measured_empty, ?_, ?_, ?_, ?_, ?_⟩
    · exact fun _ _ hk => absurd hk List.not_mem_nil
    · exact fun _ _ he => absurd he List.not_mem_nil
    · exact fun _ _ he => absurd he List.not_mem_nil
    · exact fun _ _ _ hr => absurd hr List.not_mem_nil
    · exact fun id row hlook => absurd hlook (hempty id row)
    · exact fun _ _ hr => absurd hr List.not_mem_nil
    · exact fun _ _ hn => absurd hn List.not_mem_nil
  · exact ⟨fun _ hp => absurd hp List.not_mem_nil,
      fun _ hc => absurd hc List.not_mem_nil⟩

/-- The commit of a heartbeat that leaves a row expired. -/
structure ExpiresRow (sv : LateServer) (t : Nat) (id : String) : Prop where
  heartbeat : ∃ notices cmds,
    ServerNote.handedOut notices cmds ∈ (sv.txns t).inserts
  before : ∃ row, sv.table.lookup id = some row ∧ row.status ≠ .expired
  after : ∃ row, (sv.commit t).table.lookup id = some row ∧
    row.status = .expired

/-- A heartbeat in order expires no command that has been started. -/
theorem expires_unstarted (h₀ : Installed w₀) {c : LateState Key}
    (h : Timely sg w₀ c) {t : Nat} {id : String}
    (hin : InOrder (underway c.1.1 c.2) c.1.2 t) (hx : ExpiresRow c.1.2 t id) :
    ∀ cmd ∈ (underway c.1.1 c.2).started, cmd.id ≠ id := by
  intro cmd hcmd hid
  have hreach := h.reach.trans (agentRun_underway c.2)
  have htold : Told (underway c.1.1 c.2) c.1.2 :=
    Told.later h.told (underway_told c.2).1 (underway_told c.2).2 fun n hn => hn
  have htruth : Truth (underway c.1.1 c.2) :=
    (truthful_run h₀ (agentRun_refines hreach).1).1
  obtain ⟨notices, cmds, hn⟩ := hx.heartbeat
  obtain ⟨row, hlook, hrow⟩ := hx.before
  obtain ⟨row', hlook', hrow'⟩ := hx.after
  rcases commit_row h.kept hin hlook with hsame | ⟨e, he, hkey, hread, hedited⟩
  · rw [Option.some.inj (hsame.symm.trans hlook')] at hrow
    exact hrow hrow'
  · obtain rfl := Option.some.inj (hedited.symm.trans hlook')
    have hexpired : (e.edit e.read).status = .expired :=
      ((h.kept.measured t).same e he row hread).symm.trans hrow'
    rcases (h.kept.measured t).expires notices cmds hn e he hexpired with
      hqueued | ⟨hdispatched, hunnoticed⟩
    · -- it was handed out before it was started
      obtain ⟨notices', cmds', hn', hmem⟩ :=
        htold.commands cmd (started_received h₀ hreach cmd hcmd)
      obtain ⟨row'', hlook'', hne⟩ := h.kept.handed notices' cmds' hn' cmd hmem
      rw [hid] at hlook''
      rw [Option.some.inj (hlook''.symm.trans hlook), hread] at hne
      exact hne hqueued
    · have hreports := hin.complete notices cmds hn ⟨e, he, hdispatched, hexpired⟩
      have huuid := h.kept.uuids id row hlook
      have htracks := htruth.disk id huuid
      have hunacked : ¬ Acked (underway c.1.1 c.2) id := by
        intro ⟨r, hr⟩
        obtain ⟨row'', hlook'', hrec⟩ :=
          h.kept.accepted id r (htold.acks (id, r) hr)
        rw [Option.some.inj (hlook''.symm.trans hlook), hread, hdispatched] at hrec
        cases hrec
      have hsilent : ∀ entry, (underway c.1.1 c.2).disk.lookup id = some entry →
          entry.state = some .executing ∨ entry.state = some .resultPending →
          False := by
        intro entry hentry hstate
        have hnoticed := hreports id entry hentry hstate
        rw [← hkey, hunnoticed] at hnoticed
        cases hnoticed
      rcases htracks.started cmd hcmd hid with hacked | hresult | ⟨entry, hentry, hst⟩
      · exact hunacked hacked
      · obtain ⟨r, hr⟩ := Option.ne_none_iff_exists'.mp hresult
        obtain ⟨entry, hentry, hres⟩ := Option.bind_eq_some_iff.mp hr
        rcases htracks.settled entry hentry (hres ▸ nofun) with hst | hst
        · exact hsilent entry hentry (.inr hst)
        · exact hunacked (htracks.acked entry hentry hst)
      · exact hsilent entry hentry (.inl hst)

/-- In every run in order: a recorded row never changes again, and no commit
of a heartbeat expires a command that has been started. -/
theorem lateRun_keeps_results (h₀ : Installed w₀) {c : LateState Key}
    (hrun : LateRun settings agentID InOrder sg (lateStart w₀) c) :
    (∀ id row, c.1.2.table.lookup id = some row → row.status.recorded = true →
      ∀ c', LateRun settings agentID InOrder sg c c' →
        c'.1.2.table.lookup id = some row) ∧
    ∀ t id, InOrder (underway c.1.1 c.2) c.1.2 t → ExpiresRow c.1.2 t id →
      ∀ cmd ∈ (underway c.1.1 c.2).started, cmd.id ≠ id := by
  have htimely : Timely sg w₀ c :=
    invariant_of_steps (I := Timely sg w₀) timely_step (timely_start h₀) hrun
  refine ⟨fun id row hlook hrow c' hlater => ?_,
    fun t id hin hx => expires_unstarted h₀ htimely hin hx⟩
  have hboth : Timely sg w₀ c' ∧ c'.1.2.table.lookup id = some row := by
    refine invariant_of_steps (I := fun c : LateState Key =>
      Timely sg w₀ c ∧ c.1.2.table.lookup id = some row) ?_ ⟨htimely, hlook⟩ hlater
    intro c₁ c₂ h hs
    refine ⟨timely_step c₁ c₂ h.1 hs, ?_⟩
    cases hs with
    | server hstep => exact late_recorded_stays h.1.kept hstep h.2 hrow
    | agent hagent =>
        cases hagent with
        | boot | start | settle | stop | crash => exact h.2
        | act hd =>
            have hserved := invariant_of_steps
              (I := fun sv : LateServer => Kept sv ∧ sv.table.lookup id = some row)
              (fun _ _ hi hst => ⟨kept_step hi.1 hst,
                late_recorded_stays hi.1 hst hi.2 hrow⟩)
              ⟨h.1.kept, h.2⟩ hd.2.1
            exact hserved.2
        | tear ht =>
            rw [ht.2]
            exact h.2
  exact hboth.2

end Runs

/-! ## A heartbeat that finishes late

The server handles each request of the agent at once, but for one heartbeat
the agent has given up on. -/

/-- The request is read and committed at once. -/
def promptly (sv : LateServer) (txn : CommandTxn) : LateServer :=
  (sv.read 2 txn).commit 2

/-- Transaction 1 is under way, and no other; it holds nothing. -/
structure OneStalled (stalled : CommandTxn) (sv : LateServer) : Prop where
  others : ∀ u, u ≠ 1 → sv.txns u = {}
  first : sv.txns 1 = stalled
  free : stalled.held = []

theorem OneStalled.unheld {stalled : CommandTxn} {sv : LateServer}
    (h : OneStalled stalled sv) (u : Nat) : (sv.txns u).held = [] := by
  by_cases hu : u = 1
  · rw [hu, h.first]
    exact h.free
  · rw [h.others u hu]

theorem OneStalled.promptly {stalled : CommandTxn} {sv : LateServer}
    (h : OneStalled stalled sv) (txn : CommandTxn) :
    OneStalled stalled (promptly sv txn) := by
  refine ⟨fun u hu => ?_, h.first, h.free⟩
  show Function.update (Function.update sv.txns 2 txn) 2 {} u = {}
  by_cases htwo : u = 2
  · rw [htwo]
    exact Function.update_self ..
  · rw [Function.update_of_ne htwo, Function.update_of_ne htwo]
    exact h.others u hu

section Script

variable {sv : LateServer} {stalled txn : CommandTxn}

theorem reads_promptly (h : OneStalled stalled sv)
    (hcurrent : ∀ e ∈ txn.writes, sv.table.lookup e.key = some e.read) (t : Nat)
    (hidle : sv.txns t = {}) : sv.store.Reads t txn := by
  refine ⟨hcurrent, fun k _ hother => ?_, fun e he => ?_⟩
  · obtain ⟨u, -, hk⟩ := hother
    have hunheld : (sv.store.txns u).held = [] := h.unheld u
    rw [hunheld] at hk
    exact absurd hk List.not_mem_nil
  · have hempty : sv.store.txns t = {} := hidle
    rw [hempty] at he
    exact absurd he List.not_mem_nil

theorem commits_promptly (h : OneStalled stalled sv)
    (hguard : ∀ e ∈ txn.writes, ∀ row, e.guard row = true) :
    (sv.read 2 txn).store.Commits 2 := by
  have hmine : (sv.read 2 txn).txns 2 = txn := rfl
  constructor
  · intro e _ ⟨u, hu, hk⟩
    have hsame : (sv.read 2 txn).store.txns u = sv.txns u :=
      Function.update_of_ne hu ..
    rw [hsame, h.unheld u] at hk
    exact absurd hk List.not_mem_nil
  · intro e he row _
    have hmem : e ∈ ((sv.read 2 txn).txns 2).writes := he
    rw [hmine] at hmem
    exact hguard e hmem row

/-- The transaction expires a dispatched command. -/
def expiresDispatched (txn : CommandTxn) : Bool :=
  txn.writes.any fun e => decide (e.read.status = .dispatched) &&
    decide ((e.edit e.read).status = .expired)

theorem inOrder_promptly (w : AgentWorld)
    (hcurrent : ∀ e ∈ txn.writes, sv.table.lookup e.key = some e.read)
    (hlate : expiresDispatched txn = false) : InOrder w (sv.read 2 txn) 2 := by
  have hmine : (sv.read 2 txn).txns 2 = txn := rfl
  constructor
  · intro e he _ row hlook
    rw [hmine] at he
    have hread : sv.table.lookup e.key = some row := hlook
    rw [Option.some.inj (hread.symm.trans (hcurrent e he))]
  · intro notices cmds _ hexpires
    rw [hmine] at hexpires
    obtain ⟨e, he, hdispatched, hexpired⟩ := hexpires
    have hsome : expiresDispatched txn = true :=
      List.any_eq_true.mpr ⟨e, he, by simp [hdispatched, hexpired]⟩
    rw [hlate] at hsome
    cases hsome

end Script

section Script

variable {Key : Type} {trusts : TrustedKeys Key → Prop}
  (keys : { k : TrustedKeys Key // trusts k }) (now : Int)

/-- A heartbeat that is answered, unless it has to expire what it dispatched,
or the server cannot be reached. -/
def answerBeat (online : Bool) (c : AgentWorld × LateServer)
    (notices : List (String × Option Int)) :
    HeartbeatReply Key × AgentWorld × LateServer :=
  let txn := heartbeatTxn {} "a-1" c.2.trust now
    ⟨[Agent.commandEnvelopeV3], noticesOfWire notices⟩ c.2.table
  match online && !expiresDispatched txn, txn.inserts with
  | true, [.handedOut _ cmds] =>
    (.ok keys.1 cmds, (c.1.notify notices).receive cmds, promptly c.2 txn)
  | _, _ => (.failed, c.1.notify notices, c.2)

def answerUpload (c : AgentWorld × LateServer) (id : String)
    (r : CommandResult) : Bool × AgentWorld × LateServer :=
  let txn := submitTxn "a-1" c.2.trust now id r c.2.table
  match expiresDispatched txn, txn.inserts with
  | false, [.accepted id' r'] =>
    if id' = id ∧ r' = r then
      (true, (c.1.send id r).ack id r, promptly c.2 txn)
    else (false, c.1.send id r, c.2)
  | _, _ => (false, c.1.send id r, c.2)

structure OnlyStalled (stalled : CommandTxn) (c : AgentWorld × LateServer) :
    Prop where
  told : Told c.1 c.2
  stalled : OneStalled stalled c.2

variable {keys now} {online : Bool} {c : AgentWorld × LateServer}
variable {stalled : CommandTxn}

theorem prompt_steps {settings : Settings} {agentID : String} {w : AgentWorld}
    {sv : LateServer} {txn : CommandTxn} (h : OneStalled stalled sv)
    (hread : sv.store.Reads 2 txn → LateStep settings agentID InOrder w sv
      (sv.read 2 txn))
    (hcurrent : ∀ e ∈ txn.writes, sv.table.lookup e.key = some e.read ∧
      ∀ row, e.guard row = true)
    (hlate : expiresDispatched txn = false) :
    Relation.ReflTransGen (LateStep settings agentID InOrder w) sv
      (promptly sv txn) := by
  have hreads := reads_promptly h (fun e he => (hcurrent e he).1) 2
    (h.others 2 (by decide))
  refine (Relation.ReflTransGen.single (hread hreads)).tail ?_
  exact .commit (commits_promptly h fun e he => (hcurrent e he).2)
    (inOrder_promptly w (fun e he => (hcurrent e he).1) hlate)

theorem answerBeat_does (h : OnlyStalled stalled c) (notices : List (String × Option Int)) :
    (lateWorld {} "a-1" InOrder trusts).does c (.heartbeat notices)
        (answerBeat keys now online c notices).1
        (answerBeat keys now online c notices).2 ∧
      OnlyStalled stalled (answerBeat keys now online c notices).2 := by
  simp only [answerBeat]
  split
  · next noted cmds hgo hinserts =>
      have hlate := (Bool.and_eq_true_iff.mp hgo).2
      rw [Bool.not_eq_true'] at hlate
      have htold : Told ((c.1.notify notices).receive cmds)
          (promptly c.2 (heartbeatTxn {} "a-1" c.2.trust now
            ⟨[Agent.commandEnvelopeV3], noticesOfWire notices⟩ c.2.table)) := by
        constructor
        · intro p hp
          exact List.mem_append_left _ (h.told.acks p hp)
        · intro cmd hcmd
          rcases List.mem_append.mp hcmd with hnew | hold
          · refine ⟨noted, cmds, List.mem_append_right _ ?_, hnew⟩
            show _ ∈ (heartbeatTxn _ _ _ _ _ _).inserts
            rw [hinserts]
            exact List.mem_singleton_self _
          · obtain ⟨noted', cmds', hn, hmem⟩ := h.told.commands cmd hold
            exact ⟨noted', cmds', List.mem_append_left _ hn, hmem⟩
      refine ⟨⟨⟨keys.2, rfl⟩, ?_, htold⟩, htold, h.stalled.promptly _⟩
      refine prompt_steps h.stalled (fun hreads => ?_)
        (fun e he => heartbeatTxn_current he) hlate
      exact .heartbeat List.mem_cons_self (h.stalled.others 2 (by decide)) hreads
  · exact ⟨⟨rfl, .refl, ⟨h.told.acks, h.told.commands⟩⟩,
      ⟨h.told.acks, h.told.commands⟩, h.stalled⟩

variable (trusts) in
theorem answerUpload_does (h : OnlyStalled stalled c) (id : String) (r : CommandResult) :
    (lateWorld {} "a-1" InOrder trusts).does c (.report id r)
        (answerUpload now c id r).1 (answerUpload now c id r).2 ∧
      OnlyStalled stalled (answerUpload now c id r).2 := by
  have hrefused : (lateWorld {} "a-1" InOrder trusts).does c (.report id r)
      false (c.1.send id r, c.2) ∧ OnlyStalled stalled (c.1.send id r, c.2) :=
    ⟨⟨rfl, .refl, ⟨h.told.acks, h.told.commands⟩⟩,
      ⟨h.told.acks, h.told.commands⟩, h.stalled⟩
  simp only [answerUpload]
  split
  · next id' r' hlate hinserts =>
      split
      · next hsame =>
          obtain ⟨rfl, rfl⟩ := hsame
          have htold : Told ((c.1.send id' r').ack id' r')
              (promptly c.2 (submitTxn "a-1" c.2.trust now id' r' c.2.table)) := by
            constructor
            · intro p hp
              rcases List.mem_cons.mp hp with rfl | hold
              · refine List.mem_append_right _ ?_
                show _ ∈ (submitTxn _ _ _ _ _ _).inserts
                rw [hinserts]
                exact List.mem_singleton_self _
              · exact List.mem_append_left _ (h.told.acks p hold)
            · intro cmd hcmd
              obtain ⟨noted, cmds, hn, hmem⟩ := h.told.commands cmd hcmd
              exact ⟨noted, cmds, List.mem_append_left _ hn, hmem⟩
          refine ⟨⟨rfl, ?_, htold⟩, htold, h.stalled.promptly _⟩
          refine prompt_steps h.stalled (fun hreads => ?_)
            (fun e he => submitTxn_current he) hlate
          exact .submit List.mem_cons_self (h.stalled.others 2 (by decide)) hreads
      · exact hrefused
  · exact hrefused

end Script

theorem earlySigner_trusts (keys : TrustedKeys Unit) :
    earlySigner.trusts keys := ⟨trivial, fun _ _ => trivial⟩

def lateKeys : { k : TrustedKeys Unit // earlySigner.trusts k } :=
  ⟨⟨(), [("k1", ())]⟩, earlySigner_trusts _⟩

/-- The agent's clock stands at `minutes` minutes after the first day of 1970,
the server's ten minutes ahead; every process ends well. -/
def lateScript (stalled : CommandTxn) (online : Bool) (minutes : Nat) :
    Script (lateWorld {} "a-1" InOrder earlySigner.trusts) where
  answer := fun c o =>
    match o with
    | .now =>
      (show Nat from max c.1.clock ((1440 + minutes) * 60 * 1000000000),
        (c.1.tick (max c.1.clock ((1440 + minutes) * 60 * 1000000000)), c.2))
    | .identity => (⟨"a-1", lateKeys.1⟩, c)
    | .load => (some c.1.disk, c)
    | .save entries => (true, (c.1.replaceFile entries, c.2))
    | .heartbeat notices =>
      answerBeat lateKeys ((719529 * 1440 + minutes + 10 : Nat) * 60 * 1000000)
        online c notices
    | .report id r =>
      answerUpload ((719529 * 1440 + minutes + 10 : Nat) * 60 * 1000000) c id r
    | .execute cmd =>
      ({ exitCode := 0 }, (c.1.finish cmd { exitCode := 0 }, c.2))
  covers := OnlyStalled stalled
  lawful := by
    intro c o h
    have hsame : Told c.1 c.2 := h.told
    cases o with
    | now => exact ⟨⟨le_max_left _ _, rfl⟩, .refl, ⟨hsame.acks, hsame.commands⟩⟩
    | identity => exact ⟨⟨lateKeys.2, rfl⟩, .refl, hsame⟩
    | load => exact ⟨⟨Or.inr rfl, rfl⟩, .refl, hsame⟩
    | save entries => exact ⟨Or.inl rfl, .refl, ⟨hsame.acks, hsame.commands⟩⟩
    | heartbeat notices => exact (answerBeat_does h notices).1
    | report id r => exact (answerUpload_does earlySigner.trusts h id r).1
    | execute cmd => exact ⟨rfl, .refl, ⟨hsame.acks, hsame.commands⟩⟩
  closed := by
    intro c o h
    cases o with
    | heartbeat notices => exact (answerBeat_does h notices).2
    | report id r => exact (answerUpload_does earlySigner.trusts h id r).2
    | identity => exact h
    | load => exact h
    | _ => exact ⟨⟨h.told.acks, h.told.commands⟩, h.stalled⟩

def lateTurn (stalled : CommandTxn) (online : Bool) (minutes : Nat) :
    (AgentWorld × LateServer) × Option (Session Unit) →
      (AgentWorld × LateServer) × Option (Session Unit) :=
  (lateScript stalled online minutes).turn (agentMachine (verifiesOnly earlyMessage))
    (beat (verifiesOnly earlyMessage))

theorem lateTurn_run {stalled : CommandTxn} (online : Bool) (minutes : Nat)
    {c : (AgentWorld × LateServer) × Option (Session Unit)}
    (h : OnlyStalled stalled c.1) :
    LateRun {} "a-1" InOrder earlySigner (c.1, .ofOption c.2)
        ((lateTurn stalled online minutes c).1,
          .ofOption (lateTurn stalled online minutes c).2) ∧
      OnlyStalled stalled (lateTurn stalled online minutes c).1 := by
  have hrun : (agentMachine (verifiesOnly earlyMessage)).Run _ (c.1, .ofOption c.2)
      ((lateTurn stalled online minutes c).1,
        .ofOption (lateTurn stalled online minutes c).2) :=
    (lateScript stalled online minutes).run_turn (fun _ => rfl) h
  exact ⟨Relation.ReflTransGen.mono (fun _ _ hs => .agent hs) _ _ hrun,
    (lateScript stalled online minutes).covers_turn h⟩

/-- The system with the command queued. -/
def lateQueued : AgentWorld × LateServer :=
  ({ disk := ∅, clock := 0 }, ({} : LateServer).newCommand "c-1"
    (queuedRow "a-1" earlyCommand ((719529 * 1440 + 10) * 60 * 1000000)
      (some ((719530 * 1440 + 10) * 60 * 1000000))))

/-- The agent boots, and its first heartbeat times out. -/
@[irreducible] def timedOut : (AgentWorld × LateServer) × Option (Session Unit) :=
  lateTurn {} false 15 (lateTurn {} false 15 (lateQueued, none))

/-- That heartbeat, read by the server afterwards. -/
def staleTxn : CommandTxn :=
  heartbeatTxn {} "a-1" timedOut.1.2.trust
    ((719529 * 1440 + 25) * 60 * 1000000)
    ⟨[Agent.commandEnvelopeV3], noticesOfWire []⟩ timedOut.1.2.table

def staleRead : AgentWorld × LateServer :=
  (timedOut.1.1, timedOut.1.2.read 1 staleTxn)

/-- The next heartbeat hands out the command, which is run and reported. -/
@[irreducible] def reported : (AgentWorld × LateServer) × Option (Session Unit) :=
  lateTurn staleTxn true 16 (staleRead, timedOut.2)

def reportedState : LateState Unit := (reported.1, .ofOption reported.2)

/-- The first heartbeat commits. -/
def overwrittenRow : LateState Unit :=
  ((reported.1.1, reported.1.2.commit 1), .ofOption reported.2)

theorem timedOut_facts : timedOut.1.1.notices = [[]] ∧ staleTxn.held = [] := by
  decide +kernel

theorem reported_facts :
    (reportedState.1.2.table.lookup "c-1").map (·.status) = some .succeeded ∧
      (overwrittenRow.1.2.table.lookup "c-1").map (·.status) =
        some .dispatched := by
  decide +kernel

theorem timedOut_run : LateRun {} "a-1" InOrder earlySigner
      (lateStart { disk := ∅, clock := 0 }) (timedOut.1, .ofOption timedOut.2) ∧
    OnlyStalled {} timedOut.1 := by
  have hqueued : LateRun {} "a-1" InOrder earlySigner
      (lateStart { disk := ∅, clock := 0 }) (lateQueued, .down) :=
    .single (.server (.dispatch rfl (by decide +kernel)))
  have h₀ : OnlyStalled {} lateQueued :=
    ⟨⟨nofun, nofun⟩, fun _ _ => rfl, rfl, rfl⟩
  obtain ⟨hrun₁, h₁⟩ := lateTurn_run false 15 (c := (lateQueued, none)) h₀
  obtain ⟨hrun₂, h₂⟩ := lateTurn_run false 15 h₁
  unfold timedOut
  exact ⟨(hqueued.trans hrun₁).trans hrun₂, h₂⟩

theorem reported_run : LateRun {} "a-1" InOrder earlySigner
      (lateStart { disk := ∅, clock := 0 }) reportedState ∧
    OnlyStalled staleTxn reported.1 := by
  obtain ⟨hrun, hidle⟩ := timedOut_run
  have hcurrent : ∀ e ∈ staleTxn.writes,
      timedOut.1.2.table.lookup e.key = some e.read :=
    fun e he => (heartbeatTxn_current he).1
  have hsent : [] ∈ (underway timedOut.1.1
      (.ofOption timedOut.2 : Proc AgentOp (AgentOp.Ans Unit) (Session Unit))).notices := by
    have hnotices : [] ∈ timedOut.1.1.notices := by
      rw [timedOut_facts.1]
      exact List.mem_singleton_self _
    cases timedOut.2 with
    | none => exact hnotices
    | some session => exact hnotices
  have hread : LateSystemStep {} "a-1" InOrder earlySigner
      (timedOut.1, .ofOption timedOut.2) (staleRead, .ofOption timedOut.2) :=
    .server (.heartbeat hsent hidle.stalled.first
      (reads_promptly hidle.stalled hcurrent 1 hidle.stalled.first))
  have hstalled : OnlyStalled staleTxn staleRead := by
    refine ⟨⟨hidle.told.acks, hidle.told.commands⟩, fun u hu => ?_, ?_,
      timedOut_facts.2⟩
    · show Function.update timedOut.1.2.txns 1 staleTxn u = {}
      rw [Function.update_of_ne hu]
      exact hidle.stalled.others u hu
    · rfl
  obtain ⟨hrun', hafter⟩ := lateTurn_run true 16 (c := (staleRead, timedOut.2))
    hstalled
  unfold reportedState reported
  exact ⟨(hrun.tail hread).trans hrun', hafter⟩

/-- The commits of a run are among any commits. -/
theorem lateStep_mono {settings : Settings} {agentID : String}
    {may may' : AgentWorld → LateServer → Nat → Prop} {w : AgentWorld}
    {sv sv' : LateServer} (hmay : ∀ w sv t, may w sv t → may' w sv t)
    (h : LateStep settings agentID may w sv sv') :
    LateStep settings agentID may' w sv sv' := by
  cases h with
  | dispatch hfresh huuid => exact .dispatch hfresh huuid
  | heartbeat hsent hidle hreads => exact .heartbeat hsent hidle hreads
  | submit hsent hidle hreads => exact .submit hsent hidle hreads
  | revoke htrust hidle hreads => exact .revoke htrust hidle hreads
  | commit hcommits hin => exact .commit hcommits (hmay _ _ _ hin)
  | rollback => exact .rollback
  | trust h hkeeps => exact .trust h hkeeps

theorem lateRun_mono {Key : Type} {ed25519Verify : Key → Bytes → Bytes → Bool}
    {sg : Signer ed25519Verify} {settings : Settings} {agentID : String}
    {may may' : AgentWorld → LateServer → Nat → Prop} {c c' : LateState Key}
    (hmay : ∀ w sv t, may w sv t → may' w sv t)
    (h : LateRun settings agentID may sg c c') :
    LateRun settings agentID may' sg c c' := by
  refine Relation.ReflTransGen.mono (fun a b hs => ?_) _ _ h
  cases hs with
  | server hstep => exact .server (lateStep_mono hmay hstep)
  | agent hagent =>
      refine .agent ?_
      cases hagent with
      | boot => exact .boot
      | start hp => exact .start hp
      | settle => exact .settle
      | stop => exact .stop
      | crash => exact .crash
      | act hd =>
          exact .act ⟨hd.1, Relation.ReflTransGen.mono
            (fun _ _ hst => lateStep_mono hmay hst) _ _ hd.2.1, hd.2.2⟩
      | tear ht => exact .tear ht

/-- A command that has succeeded reads as dispatched again. -/
theorem succeeded_reads_dispatched : ∃ c c' : LateState Unit,
    LateRun {} "a-1" (fun _ _ _ => True) earlySigner
        (lateStart { disk := ∅, clock := 0 }) c ∧
      LateRun {} "a-1" (fun _ _ _ => True) earlySigner c c' ∧
      (c.1.2.table.lookup "c-1").map (·.status) = some .succeeded ∧
      (c'.1.2.table.lookup "c-1").map (·.status) = some .dispatched := by
  obtain ⟨hrun, hstalled⟩ := reported_run
  refine ⟨reportedState, overwrittenRow, lateRun_mono (fun _ _ _ _ => trivial) hrun,
    .single (.server (.commit ⟨?_, ?_⟩ trivial)), reported_facts.1,
    reported_facts.2⟩
  · intro e _ ⟨u, _, hk⟩
    have hunheld : (reported.1.2.store.txns u).held = [] :=
      hstalled.stalled.unheld u
    rw [hunheld] at hk
    exact absurd hk List.not_mem_nil
  · intro e he row _
    have hmem : e ∈ (reported.1.2.txns 1).writes := he
    rw [hstalled.stalled.first] at hmem
    exact (heartbeatTxn_current hmem).2 row

theorem lateRun_keeps_results_reported :
    (∀ id row, reportedState.1.2.table.lookup id = some row →
      row.status.recorded = true →
        ∀ c', LateRun {} "a-1" InOrder earlySigner reportedState c' →
          c'.1.2.table.lookup id = some row) ∧
    ∀ t id, InOrder (underway reportedState.1.1 reportedState.2)
        reportedState.1.2 t → ExpiresRow reportedState.1.2 t id →
      ∀ cmd ∈ (underway reportedState.1.1 reportedState.2).started, cmd.id ≠ id :=
  lateRun_keeps_results ⟨0, rfl⟩ reported_run.1

end NodeLink.Proofs
