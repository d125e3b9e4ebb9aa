import NodeLink.Lib.Newest
import NodeLink.Server.MonitoringEvaluators

/-!
# How long check results are kept

`prune_check_results` in `core/monitoring.py`, which bounds the results of every
check of every agent. The rows are ranked by the time they were received.
-/

namespace NodeLink.Server

open Lib

/-- The columns results are grouped by. -/
structure ResultGroup where
  agentID : String
  checkKey : String
  deriving DecidableEq, Repr

def CheckResult.group (result : CheckResult) : ResultGroup :=
  ⟨result.agentID, result.checkKey⟩

section Prune

/-! The column `received_at`, by the id of the row. -/

variable (receivedAt : String → Int)

/-- `(received_at, id)` -/
def CheckResult.receivedOrder (result : CheckResult) : ResultOrder :=
  toLex (receivedAt result.id, result.id)

/-- The groups that have more than `keep` rows. -/
def overfullGroups (keep : Int) (tables : MonitoringTables) : List ResultGroup :=
  (tables.db.results.map (·.group)).dedup.filter fun group =>
    decide (keep < (tables.db.results.countP fun r => decide (r.group = group) : Nat))

/-- `keep_ids` -/
def keepIDs (keep : Int) (tables : MonitoringTables) (group : ResultGroup) :
    List String :=
  (newest (·.receivedOrder receivedAt) keep.toNat
    (tables.db.results.filter fun r => decide (r.group = group))).map (·.id)

def CheckResult.doomed (group : ResultGroup) (keepIDs : List String)
    (result : CheckResult) : Bool :=
  decide (result.group = group) && decide (result.id ∉ keepIDs)

/-- Delete the rows of one group, with their observations; the detail is a
column of the row. -/
def pruneGroup (keep : Int) (tables : MonitoringTables) (group : ResultGroup) :
    MonitoringTables :=
  let doomed := CheckResult.doomed group (keepIDs receivedAt keep tables group)
  let doomedIDs := (tables.db.results.filter doomed).map (·.id)
  { tables with
    db :=
      { alertDB :=
          { tables.db.alertDB with
            observations := tables.db.alertDB.observations.filter fun o =>
              decide (o.checkResultID ∉ doomedIDs) }
        results := tables.db.results.filter fun r => !doomed r }
    details := tables.details.filter fun d => decide (d.1 ∉ doomedIDs) }

/-- `prune_check_results`: the tables, and the number of the rows that were
deleted. -/
def pruneCheckResults (keep : Int) (tables : MonitoringTables) :
    MonitoringTables × Nat :=
  if keep ≤ 0 then (tables, 0)
  else
    let pruned := (overfullGroups keep tables).foldl (pruneGroup receivedAt keep) tables
    (pruned, tables.db.results.length - pruned.db.results.length)

end Prune

end NodeLink.Server
