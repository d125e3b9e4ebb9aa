import NodeLink.Server.ResultRetention
import Mathlib.Data.List.Dedup

/-!
# What pruning leaves to the evaluators

Pruning ranks the results of a check by the time they were received, and the
evaluators read the one that was evaluated last. Pruning leaves what they read
exactly where, in every group, fewer than `keep` rows were received after that
one.
-/

namespace NodeLink.Proofs.ResultPruning

open Lib Server

/-- The row the evaluators find for a check of an agent, before they look at its
policy. -/
def latestResult (tables : MonitoringTables) (group : ResultGroup) :
    Option CheckResult :=
  (tables.db.results.filter fun r => decide (r.group = group)).argmax CheckResult.order

/-- The evaluators read the same rows, with the same details, for every agent,
policy and check. -/
structure SameReads (before after : MonitoringTables) : Prop where
  latest : ∀ group, latestResult after group = latestResult before group
  previous : ∀ agentID item,
    previousResult after agentID item = previousResult before agentID item

/-- How many rows of its group were received after a row. -/
def receivedAfter (receivedAt : String → Int) (tables : MonitoringTables)
    (result : CheckResult) : Nat :=
  (tables.db.results.filter fun r => decide (r.group = result.group)).countP fun r =>
    decide (result.receivedOrder receivedAt < r.receivedOrder receivedAt)

section Prune

variable {receivedAt : String → Int} {keep : Int} {tables : MonitoringTables}
  {group group' : ResultGroup} {groups : List ResultGroup} {result : CheckResult}

/-! ## Keys -/

theorem nodup_map_order (h : (tables.db.results.map (·.id)).Nodup)
    (p : CheckResult → Bool) :
    ((tables.db.results.filter p).map CheckResult.order).Nodup := by
  refine List.Nodup.of_map (fun o => (ofLex o).2) ?_
  rw [List.map_map]
  exact h.sublist (List.filter_sublist.map _)

theorem nodup_map_receivedOrder (h : (tables.db.results.map (·.id)).Nodup)
    (p : CheckResult → Bool) :
    ((tables.db.results.filter p).map (·.receivedOrder receivedAt)).Nodup := by
  refine List.Nodup.of_map (fun o => (ofLex o).2) ?_
  rw [List.map_map]
  exact h.sublist (List.filter_sublist.map _)

/-- The rows a group keeps, whatever its size. -/
theorem mem_keepIDs_iff (h : (tables.db.results.map (·.id)).Nodup)
    (hmem : result ∈ tables.db.results) :
    result.id ∈ keepIDs receivedAt keep tables result.group ↔
      receivedAfter receivedAt tables result < keep.toNat := by
  have hgroup : result ∈ tables.db.results.filter
      fun r => decide (r.group = result.group) :=
    List.mem_filter.mpr ⟨hmem, decide_eq_true rfl⟩
  rw [keepIDs, List.mem_map, receivedAfter]
  constructor
  · rintro ⟨kept, hkept, hid⟩
    obtain ⟨hin, hcount⟩ := (mem_newest_iff (nodup_map_receivedOrder h _)).mp hkept
    rwa [List.inj_on_of_nodup_map h (List.mem_filter.mp hin).1 hmem hid] at hcount
  · intro hcount
    exact ⟨result,
      (mem_newest_iff (nodup_map_receivedOrder h _)).mpr ⟨hgroup, hcount⟩, rfl⟩

/-! ## The rows that are left -/

theorem pruneGroup_results :
    (pruneGroup receivedAt keep tables group).db.results =
      tables.db.results.filter fun r =>
        !r.doomed group (keepIDs receivedAt keep tables group) := rfl

/-- The other groups stay as they are. -/
theorem keepIDs_pruneGroup (h : group' ≠ group) :
    keepIDs receivedAt keep (pruneGroup receivedAt keep tables group) group' =
      keepIDs receivedAt keep tables group' := by
  rw [keepIDs, keepIDs, pruneGroup_results, List.filter_filter]
  congr 2
  refine List.filter_congr fun r _ => ?_
  by_cases hr : r.group = group'
  · simp [CheckResult.doomed, hr, h]
  · simp [hr]

theorem foldl_pruneGroup_results (hnodup : groups.Nodup) :
    (groups.foldl (pruneGroup receivedAt keep) tables).db.results =
      tables.db.results.filter fun r =>
        decide (r.group ∈ groups → r.id ∈ keepIDs receivedAt keep tables r.group) := by
  induction groups generalizing tables with
  | nil => simp
  | cons group groups ih =>
      obtain ⟨hgroup, hnodup⟩ := List.nodup_cons.mp hnodup
      rw [List.foldl_cons, ih hnodup, pruneGroup_results, List.filter_filter]
      refine List.filter_congr fun r _ => ?_
      by_cases hr : r.group = group
      · simp [CheckResult.doomed, hr, hgroup]
      · simp [CheckResult.doomed, hr, keepIDs_pruneGroup hr]

theorem receivedAfter_lt (hmem : result ∈ tables.db.results) :
    receivedAfter receivedAt tables result <
      tables.db.results.countP fun r => decide (r.group = result.group) := by
  rw [List.countP_eq_length_filter, receivedAfter]
  refine lt_of_le_of_ne List.countP_le_length fun heq => ?_
  -- A row is not received after itself.
  have hself := List.countP_eq_length.mp heq result
    (List.mem_filter.mpr ⟨hmem, decide_eq_true rfl⟩)
  exact lt_irrefl _ (of_decide_eq_true hself)

theorem pruneCheckResults_results (hkeep : 1 ≤ keep)
    (h : (tables.db.results.map (·.id)).Nodup) :
    (pruneCheckResults receivedAt keep tables).1.db.results =
      tables.db.results.filter fun r =>
        decide (receivedAfter receivedAt tables r < keep.toNat) := by
  have hgroups : (overfullGroups keep tables).Nodup := (List.nodup_dedup _).filter _
  rw [pruneCheckResults, if_neg (by omega)]
  dsimp only
  rw [foldl_pruneGroup_results hgroups]
  refine List.filter_congr fun r hr => ?_
  rw [decide_eq_decide, mem_keepIDs_iff h hr]
  have hgroup : r.group ∈ tables.db.results.map (·.group) := List.mem_map_of_mem hr
  have hoverfull : r.group ∈ overfullGroups keep tables ↔
      keep < (tables.db.results.countP fun s => decide (s.group = r.group) : Nat) := by
    rw [overfullGroups, List.mem_filter, List.mem_dedup, and_iff_right hgroup,
      decide_eq_true_eq]
  have hlt := @receivedAfter_lt receivedAt tables r hr
  rw [hoverfull]
  omega

/-! ## The details that are left -/

theorem pruneGroup_detail (h : (tables.db.results.map (·.id)).Nodup)
    (hmem : result ∈ (pruneGroup receivedAt keep tables group).db.results) :
    (pruneGroup receivedAt keep tables group).detail result.id =
      tables.detail result.id := by
  obtain ⟨hresult, hkept⟩ := List.mem_filter.mp hmem
  have hid : result.id ∉ (tables.db.results.filter
      (CheckResult.doomed group (keepIDs receivedAt keep tables group))).map (·.id) := by
    rw [List.mem_map]
    rintro ⟨other, hother, heq⟩
    obtain ⟨hin, hdoomed⟩ := List.mem_filter.mp hother
    rw [List.inj_on_of_nodup_map h hin hresult heq] at hdoomed
    rw [hdoomed] at hkept
    cases hkept
  unfold MonitoringTables.detail pruneGroup
  dsimp only
  rw [List.find?_filter]
  congr 3
  funext d
  by_cases hd : d.1 = result.id
  · simp [hd, hid]
  · simp [hd]

theorem foldl_pruneGroup_subset :
    (groups.foldl (pruneGroup receivedAt keep) tables).db.results ⊆
      tables.db.results := by
  induction groups generalizing tables with
  | nil => exact List.Subset.refl _
  | cons group groups ih => exact List.Subset.trans ih (List.filter_subset_self _)

theorem foldl_pruneGroup_detail (h : (tables.db.results.map (·.id)).Nodup)
    (hmem : result ∈
      (groups.foldl (pruneGroup receivedAt keep) tables).db.results) :
    (groups.foldl (pruneGroup receivedAt keep) tables).detail result.id =
      tables.detail result.id := by
  induction groups generalizing tables with
  | nil => rfl
  | cons group groups ih =>
      have hstep : ((pruneGroup receivedAt keep tables group).db.results.map
          (·.id)).Nodup := h.sublist (List.filter_sublist.map _)
      rw [List.foldl_cons, ih hstep hmem]
      exact pruneGroup_detail h (foldl_pruneGroup_subset hmem)

theorem pruneCheckResults_detail (h : (tables.db.results.map (·.id)).Nodup)
    (hmem : result ∈ (pruneCheckResults receivedAt keep tables).1.db.results) :
    (pruneCheckResults receivedAt keep tables).1.detail result.id =
      tables.detail result.id := by
  unfold pruneCheckResults at hmem ⊢
  split
  next => rfl
  next hpos =>
    rw [if_neg hpos] at hmem
    exact foldl_pruneGroup_detail h hmem

/-! ## What is read -/

/-- In every group, few rows were received after the one that was evaluated
last. -/
def LatestAmongNewest (receivedAt : String → Int) (keep : Int)
    (tables : MonitoringTables) : Prop :=
  ∀ group result, latestResult tables group = some result →
    receivedAfter receivedAt tables result < keep.toNat

theorem latestResult_prune_iff (hkeep : 1 ≤ keep)
    (h : (tables.db.results.map (·.id)).Nodup)
    (hlatest : latestResult tables group = some result) :
    latestResult (pruneCheckResults receivedAt keep tables).1 group = some result ↔
      receivedAfter receivedAt tables result < keep.toNat := by
  have hcomm := List.filter_comm (fun r : CheckResult => decide (r.group = group))
    (fun r => decide (receivedAfter receivedAt tables r < keep.toNat))
    tables.db.results
  rw [latestResult, pruneCheckResults_results hkeep h, hcomm,
    argmax_filter_eq_iff (nodup_map_order h _) hlatest, decide_eq_true_eq]

theorem latestResult_prune_none (hkeep : 1 ≤ keep)
    (h : (tables.db.results.map (·.id)).Nodup)
    (hlatest : latestResult tables group = none) :
    latestResult (pruneCheckResults receivedAt keep tables).1 group = none := by
  have hcomm := List.filter_comm (fun r : CheckResult => decide (r.group = group))
    (fun r => decide (receivedAfter receivedAt tables r < keep.toNat))
    tables.db.results
  rw [latestResult, List.argmax_eq_none] at hlatest
  rw [latestResult, pruneCheckResults_results hkeep h, hcomm, hlatest]
  rfl

/-- The evaluators take the latest row, where it is of the policy at hand. -/
theorem previousResult_eq (tables : MonitoringTables) (agentID : String)
    (item : EffectiveCheck) :
    previousResult tables agentID item =
      ((latestResult tables ⟨agentID, item.definition.key⟩).filter fun r =>
        decide (r.policyID = some item.sourcePolicyID ∧
          r.policyRevisionID = some item.sourceRevisionID)).map
        fun r => (r, tables.detail r.id) := by
  unfold previousResult latestResult
  congr 4
  funext r
  rw [decide_eq_decide, CheckResult.group, ResultGroup.mk.injEq]

theorem latestResult_mem (hlatest : latestResult tables group = some result) :
    result ∈ tables.db.results :=
  (List.mem_filter.mp (List.argmax_mem hlatest)).1

theorem sameReads_of_latest (h : (tables.db.results.map (·.id)).Nodup)
    (hsame : ∀ group,
      latestResult (pruneCheckResults receivedAt keep tables).1 group =
        latestResult tables group) :
    SameReads tables (pruneCheckResults receivedAt keep tables).1 := by
  refine ⟨hsame, fun agentID item => ?_⟩
  rw [previousResult_eq, previousResult_eq, hsame]
  cases hlatest : latestResult tables ⟨agentID, item.definition.key⟩ with
  | none => rfl
  | some result =>
      have hmem := latestResult_mem ((hsame _).trans hlatest)
      cases hpolicy : decide (result.policyID = some item.sourcePolicyID ∧
          result.policyRevisionID = some item.sourceRevisionID) with
      | false => simp only [Option.filter, hpolicy]; rfl
      | true =>
          simp only [Option.filter, hpolicy, if_true, Option.map_some,
            pruneCheckResults_detail h hmem]

/-- Pruning leaves what the evaluators read exactly where the row evaluated last
is, in every group, among the `keep` rows received last. -/
theorem prune_keeps_reads_iff (receivedAt : String → Int) (keep : Int)
    (tables : MonitoringTables) (hkeep : 1 ≤ keep)
    (hids : (tables.db.results.map (·.id)).Nodup) :
    SameReads tables (pruneCheckResults receivedAt keep tables).1 ↔
      LatestAmongNewest receivedAt keep tables := by
  constructor
  · intro hreads group result hlatest
    refine (latestResult_prune_iff hkeep hids hlatest).mp ?_
    rw [hreads.latest, hlatest]
  · intro hnewest
    refine sameReads_of_latest hids fun group => ?_
    cases hlatest : latestResult tables group with
    | none => exact latestResult_prune_none hkeep hids hlatest
    | some result =>
        exact (latestResult_prune_iff hkeep hids hlatest).mpr
          (hnewest group result hlatest)

end Prune

/-! ## A result that is late -/

/-- A result of a check of the processor. -/
def cpuResult (id : String) (status : CheckResultStatus) (evaluatedAt : Int) :
    CheckResult where
  id := id
  agentID := "a"
  policyID := some "p"
  policyRevisionID := some "v"
  checkKey := "cpu"
  status := status
  value := none
  evaluatedAt := evaluatedAt

/-- The second result was evaluated before the first, and received after it. -/
def lateTables : MonitoringTables where
  db :=
    { alertDB := ⟨⟨fun _ => none, fun _ => none⟩, [], [], [], []⟩
      results := [cpuResult "1" .critical 10, cpuResult "2" .ok 5] }
  active := fun _ => true
  lastSeen := fun _ => none

def lateReceivedAt (id : String) : Int := if id = "1" then 11 else 12

/-- The same behind an older result. -/
def longTables : MonitoringTables :=
  { lateTables with
    db := { lateTables.db with
      results := cpuResult "0" .warning 1 :: lateTables.db.results } }

def longReceivedAt (id : String) : Int :=
  if id = "0" then 2 else lateReceivedAt id

/-- Two rows are kept of three, and one of three. -/
theorem prune_keeps_reads_iff_late :
    ((pruneCheckResults longReceivedAt 2 longTables).1.db.results.map (·.id) =
        ["1", "2"] ∧
      (SameReads longTables (pruneCheckResults longReceivedAt 2 longTables).1 ↔
        LatestAmongNewest longReceivedAt 2 longTables)) ∧
    (pruneCheckResults longReceivedAt 1 longTables).1.db.results.map (·.id) =
        ["2"] ∧
      (SameReads longTables (pruneCheckResults longReceivedAt 1 longTables).1 ↔
        LatestAmongNewest longReceivedAt 1 longTables) :=
  ⟨⟨by decide,
      prune_keeps_reads_iff longReceivedAt 2 longTables (by decide) (by decide)⟩,
    by decide,
    prune_keeps_reads_iff longReceivedAt 1 longTables (by decide) (by decide)⟩

/-- Of the two the one is kept that was evaluated first. -/
theorem prune_changes_reads :
    ¬ SameReads lateTables (pruneCheckResults lateReceivedAt 1 lateTables).1 := by
  intro h
  have hbefore : latestResult lateTables ⟨"a", "cpu"⟩ =
      some (cpuResult "1" .critical 10) := by decide
  have hafter : latestResult (pruneCheckResults lateReceivedAt 1 lateTables).1
      ⟨"a", "cpu"⟩ = some (cpuResult "2" .ok 5) := by decide
  have hsame := h.latest ⟨"a", "cpu"⟩
  rw [hbefore, hafter] at hsame
  exact absurd hsame (by decide)

end NodeLink.Proofs.ResultPruning
