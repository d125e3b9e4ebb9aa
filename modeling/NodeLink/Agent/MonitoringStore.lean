import NodeLink.Lib.PyValue

/-!
# The monitoring outbox of an agent

`internal/monitoring/store.go`, what `Evaluate` in
`internal/monitoring/evaluator.go` keeps of the outbox, and
`flushMonitoringResults` in `internal/service/runner.go`. The store is on disk
before anything is sent; a write that fails ends the service and is left out.
-/

namespace NodeLink.Agent.Monitoring

open Lib

/-- `Result`; the detail is kept as the JSON that is sent. -/
structure Result where
  id : String
  policyID : String
  policyRevisionID : String
  checkKey : String
  status : String
  value : Option Double
  detail : Option (List (String × PyValue))
  evaluatedAt : Int

/-- `Assignment`, with what the outbox reads of its definition. -/
structure Assignment where
  key : String
  enabled : Bool
  policyID : String
  policyRevisionID : String
  deriving DecidableEq, Repr

/-- `active[key]` in `Evaluate`: the last enabled assignment of a key. -/
def activeAssignment (assignments : List Assignment) (key : String) :
    Option Assignment :=
  assignments.reverse.find? fun a => a.enabled && decide (a.key = key)

/-- The check of a result is still assigned, by the same revision of the same
policy. -/
def Result.assigned (assignments : List Assignment) (r : Result) : Bool :=
  (activeAssignment assignments r.checkKey).any fun a =>
    decide (a.policyID = r.policyID) &&
      decide (a.policyRevisionID = r.policyRevisionID)

/-- What `Evaluate` keeps of the outbox, before it evaluates anything. -/
def keepAssigned (assignments : List Assignment) (pending : List Result) :
    List Result :=
  pending.filter (·.assigned assignments)

/-- `PendingBatch` -/
def pendingBatch (limit : Nat) (pending : List Result) : List Result :=
  pending.take limit

/-- `AcknowledgePrefix`, of no more than there is. -/
def acknowledgePrefix (count : Nat) (pending : List Result) : List Result :=
  pending.drop count

inductive FlushError where
  /-- The request failed, or was refused. -/
  | request
  | acknowledged (count of : Nat)
  deriving DecidableEq, Repr

/-- What a flush leaves: the server's side, the outbox, and its error. -/
structure Flushed (S : Type) where
  server : S
  pending : List Result
  err : Option FlushError

/-- `flushMonitoringResults`. `submit k batch s` is the answer to request `k`
of the flush: how many results it acknowledges, and what it leaves on the
server. -/
def flushMonitoringResults {S : Type}
    (submit : Nat → List Result → S → Option (Nat × S)) (k : Nat)
    (pending : List Result) (s : S) : Flushed S :=
  match pending with
  | [] => ⟨s, [], none⟩
  | r :: rest =>
    match submit k (pendingBatch 100 (r :: rest)) s with
    | none => ⟨s, r :: rest, some .request⟩
    | some (acknowledged, s') =>
      if acknowledged ≠ (pendingBatch 100 (r :: rest)).length then
        ⟨s', r :: rest, some (.acknowledged acknowledged
          (pendingBatch 100 (r :: rest)).length)⟩
      else
        flushMonitoringResults submit (k + 1)
          (acknowledgePrefix (pendingBatch 100 (r :: rest)).length (r :: rest))
          s'
termination_by pending.length
decreasing_by
  simp only [acknowledgePrefix, pendingBatch, List.length_drop,
    List.length_take, List.length_cons]
  omega

end NodeLink.Agent.Monitoring
