import NodeLink.Server.Delivery

/-!
# Check-ins the server answers

A check-in in which every request gets an answer and every save goes
through: the heartbeat is refused, held in quarantine or served as
`heartbeat` decides, and every upload gets the answer of `submit_result`,
success or refusal. Between two check-ins the server may change in any way.
-/

namespace NodeLink.Server

open Lib Agent

/-- What `heartbeat` refuses, with 422 or 401. -/
def heartbeatRefused (trust : AgentTrustState)
    (notices : List (String × Option Int)) : Bool :=
  !HeartbeatIn.valid ⟨[], noticesOfWire notices⟩ || decide (trust = .revoked)

/-- `submit_result` answers with success. -/
def ServerState.takes (agentID : String) (sv : ServerState) (id : String)
    (r : CommandResult) : Bool :=
  decide (sv.trust = .active) && (ResultBody.ofWire r).valid
    && match (sv.table.lookup id).filter fun row =>
        decide (row.agentID = agentID) with
      | none => false
      | some row =>
        if row.status.recorded then row.sameResult (ResultBody.ofWire r)
        else row.status.acceptsResults

theorem submitResult_noContent_iff {agentID : String} {sv : ServerState}
    {now : Int} {id : String} {r : CommandResult} :
    (submitResult agentID sv.trust now id (ResultBody.ofWire r) sv.table).1 =
      .noContent ↔ sv.takes agentID id r = true := by
  rw [submitResult, ServerState.takes]
  cases htrust : sv.trust with
  | revoked => simp
  | quarantined =>
      cases hvalid : (ResultBody.ofWire r).valid with
      | false => simp
      | true => simp
  | active =>
      cases hvalid : (ResultBody.ofWire r).valid with
      | false => simp
      | true =>
          cases hrow : (sv.table.lookup id).filter fun row =>
              decide (row.agentID = agentID) with
          | none => simp
          | some row =>
              cases hrec : row.status.recorded with
              | true =>
                  cases hsame : row.sameResult (ResultBody.ofWire r) with
                  | true => simp [hrec, hsame]
                  | false => simp [hrec, hsame]
              | false =>
                  cases hacc : row.status.acceptsResults with
                  | true => simp [hrec, hacc]
                  | false => simp [hrec, hacc]

/-- A refused upload leaves the table alone. -/
theorem submitResult_refused {agentID : String} {trust : AgentTrustState}
    {now : Int} {id : String} {body : ResultBody} {table : CommandTable}
    (h : (submitResult agentID trust now id body table).1 ≠ .noContent) :
    (submitResult agentID trust now id body table).2 = table := by
  unfold submitResult at h ⊢
  split
  · rfl
  · next h₁ =>
    rw [if_neg h₁] at h
    split
    · rfl
    · next h₂ =>
      rw [if_neg h₂] at h
      split
      · rfl
      · next h₃ =>
        rw [if_neg h₃] at h
        split
        · rfl
        · next row hrow =>
          rw [hrow] at h
          dsimp only at h
          split
          · split
            · rfl
            · rfl
          · next h₄ =>
            rw [if_neg h₄] at h
            split
            · rfl
            · next h₅ =>
              rw [if_neg h₅] at h
              exact absurd rfl h

section World

variable {Key : Type} (agentID : String) (hands : List Command → Prop)
  (reading : Nat)

/-- An action of a check-in at a clock reading of at least `reading`, in
which commands are handed out as `hands` allows. -/
def answeredDoes (sv : ServerState) :
    (o : AgentOp) → AgentOp.Ans Key o → ServerState → Prop
  | .now, (t : Nat), sv' => reading ≤ t ∧ sv' = sv
  | .identity, _, sv' => sv' = sv
  | .load, _, sv' => sv' = sv
  | .save _, (ok : Bool), sv' => ok = true ∧ sv' = sv
  | .heartbeat notices, reply, sv' => sv' = sv ∧
    match reply with
    | .failed => heartbeatRefused sv.trust notices = true
    | .quarantined => heartbeatRefused sv.trust notices = false ∧
      sv.trust = .quarantined
    | .ok _ cmds => heartbeatRefused sv.trust notices = false ∧
      sv.trust ≠ .quarantined ∧ hands cmds
  | .report id r, (ok : Bool), sv' => ok = sv.takes agentID id r ∧
    ∃ now, sv' = sv.submitted id r
      (submitResult agentID sv.trust now id (ResultBody.ofWire r) sv.table)
  | .execute _, _, sv' => sv' = sv

/-- No crash comes in between. -/
def answeredWorld : Lib.World AgentOp (AgentOp.Ans Key) ServerState where
  does := answeredDoes agentID hands reading
  torn := fun _ _ _ => False

variable (ed25519Verify : Key → Bytes → Bytes → Bool)

/-- Check-ins one after another, each with the server as it stands when it
has handled the heartbeat. -/
inductive CheckIns : Session Key → List ServerState → Session Key → Prop where
  | nil {s} : CheckIns s [] s
  | cons {s s₁ s₂ out sv sv' svs}
      (h : RunsTo (answeredWorld agentID hands reading)
        (checkIn ed25519Verify s) sv (out, s₁) sv')
      (hrest : CheckIns s₁ svs s₂) : CheckIns s (sv :: svs) s₂

end World

end NodeLink.Server
