import NodeLink.Lib.Overlays
import NodeLink.Server.Monitoring

/-!
# The greatest policy that mentions a check decides it

The checks of an agent are merged policy by policy, each overwriting and
deleting what the ones before it left. What comes out is a statement about each
key by itself: of the policies that apply to the agent and mention the key, the
greatest one, by scope, then by creation time, then by id, either defines the
check or leaves it out.
-/

namespace NodeLink.Proofs.EffectivePolicy

open Lib Server

/-! ## Who decides -/

/-- Scope first, then creation time, then id. -/
def rank (policy : MonitoringPolicy) : Nat ×ₗ Int ×ₗ String :=
  toLex (monitoringScopePrecedence policy.scope,
    toLex (policy.createdAt, policy.id))

variable (tables : PolicyTables) (dir : Directory) (agent : AgentPlace)

def Applies (policy : MonitoringPolicy) : Prop :=
  policy ∈ tables.policies ∧ policy.enabled = true ∧
    policy.covers dir agent = true

/-- What a policy says about a key: the definition in its current revision, the
last one if a row has several. -/
def Defines (key : String) (policy : MonitoringPolicy)
    (revision : MonitoringPolicyRevision)
    (definition : CheckDefinition) : Prop :=
  currentMonitoringRevision tables policy.id = some revision ∧
    lastWhere (fun d => decide (d.key = key)) revision.checks = some definition

/-- The greatest policy that applies and mentions the key. -/
structure Decides (key : String) (policy : MonitoringPolicy)
    (revision : MonitoringPolicyRevision) (definition : CheckDefinition) :
    Prop where
  applies : Applies tables dir agent policy
  defines : Defines tables key policy revision definition
  greatest : ∀ policy' revision' definition',
    Applies tables dir agent policy' →
    Defines tables key policy' revision' definition' →
      rank policy' ≤ rank policy

/-- A definition, with the policy and the revision it is from. -/
def checkOf (policy : MonitoringPolicy) (revision : MonitoringPolicyRevision)
    (definition : CheckDefinition) : EffectiveCheck where
  definition
  sourceScope := policy.scope
  sourcePolicyID := policy.id
  sourceRevisionID := revision.id
  sourcePolicyName := policy.name

/-! ## Policies as settings -/

/-- A definition that is enabled gives its key a value, one that is not takes
the key out. -/
def setting (policy : MonitoringPolicy) (revision : MonitoringPolicyRevision)
    (definition : CheckDefinition) : String × Option EffectiveCheck :=
  (definition.key,
    if definition.enabled then some (checkOf policy revision definition)
    else none)

def settings (policy : MonitoringPolicy) :
    List (String × Option EffectiveCheck) :=
  match currentMonitoringRevision tables policy.id with
  | none => []
  | some revision => revision.checks.map (setting policy revision)

theorem mergeDefinition_eq (policy : MonitoringPolicy)
    (revision : MonitoringPolicyRevision) :
    mergeDefinition policy revision =
      fun effective definition =>
        overlay effective (setting policy revision definition) := by
  funext effective definition
  rw [mergeDefinition, overlay, setting]
  cases definition.enabled with
  | true => rfl
  | false => exact (List.append_nil _).symm

theorem mergePolicy_eq (effective : List (String × EffectiveCheck))
    (policy : MonitoringPolicy) :
    mergePolicy tables effective policy =
      (settings tables policy).foldl overlay effective := by
  rw [mergePolicy, settings]
  cases currentMonitoringRevision tables policy.id with
  | none => rfl
  | some revision =>
      refine Eq.trans ?_ List.foldl_map.symm
      exact congrArg (fun merge => revision.checks.foldl merge effective)
        (mergeDefinition_eq policy revision)

/-- The policies that apply, the least one first. -/
def ranked : List MonitoringPolicy :=
  (applicableMonitoringPolicies tables dir agent).insertionSort
    fun p q => rank p ≤ rank q

/-- The dictionary the policies are merged into. -/
def merged : List (String × EffectiveCheck) :=
  ((ranked tables dir agent).flatMap (settings tables)).foldl overlay []

theorem resolve_eq :
    resolveEffectivePolicy tables dir agent =
      ((merged tables dir agent).insertionSort fun a b => a.1 ≤ b.1).map
        (·.2) := by
  rw [merged, List.foldl_flatMap]
  simp only [← mergePolicy_eq]
  rfl

variable {tables dir agent}

theorem mem_ranked {policy : MonitoringPolicy} :
    policy ∈ ranked tables dir agent ↔ Applies tables dir agent policy := by
  rw [ranked, List.mem_insertionSort, applicableMonitoringPolicies,
    List.mem_insertionSort, List.mem_filter, Bool.and_eq_true]
  rfl

theorem ranked_sorted (hids : (tables.policies.map (·.id)).Nodup) :
    (ranked tables dir agent).Pairwise fun p q => rank p < rank q := by
  have hweak : (ranked tables dir agent).Pairwise fun p q => rank p ≤ rank q :=
    List.pairwise_insertionSort _ _
  have hperm : (ranked tables dir agent).Perm
      (tables.policies.filter fun p => p.enabled && p.covers dir agent) :=
    (List.perm_insertionSort _ _).trans (List.perm_insertionSort _ _)
  have hnodup : ((ranked tables dir agent).map (·.id)).Nodup :=
    (hperm.map _).nodup_iff.mpr (hids.sublist (List.filter_sublist.map _))
  have hne : (ranked tables dir agent).Pairwise fun p q => p.id ≠ q.id :=
    List.pairwise_map.mp hnodup
  refine hweak.imp₂
    (fun p q hle hid => lt_of_le_of_ne hle fun heq => hid ?_) hne
  exact congrArg (fun r => (ofLex (ofLex r).2).2) heq

/-! ## What a policy's settings hold -/

theorem defines_of_setting {policy : MonitoringPolicy} {key : String}
    {value : Option EffectiveCheck}
    (h : lastWhere (fun s => decide (s.1 = key)) (settings tables policy) =
      some (key, value)) :
    ∃ revision definition, Defines tables key policy revision definition ∧
      value = (setting policy revision definition).2 := by
  rw [settings] at h
  cases hrevision : currentMonitoringRevision tables policy.id with
  | none => rw [hrevision] at h; exact nomatch h
  | some revision =>
      rw [hrevision] at h
      replace h := lastWhere_map.symm.trans h
      obtain ⟨definition, hlast, heq⟩ := Option.map_eq_some_iff.mp h
      exact ⟨revision, definition, ⟨hrevision, hlast⟩,
        (congrArg Prod.snd heq).symm⟩

theorem setting_of_defines {policy : MonitoringPolicy}
    {revision : MonitoringPolicyRevision} {definition : CheckDefinition}
    {key : String} (h : Defines tables key policy revision definition) :
    lastWhere (fun s => decide (s.1 = key)) (settings tables policy) =
      some (key, (setting policy revision definition).2) := by
  obtain ⟨hrevision, hlast⟩ := h
  have hkey : definition.key = key := of_decide_eq_true (lastWhere_mem hlast).2
  rw [settings, hrevision]
  refine lastWhere_map.trans ?_
  refine (congrArg (Option.map _) hlast).trans ?_
  rw [Option.map_some, ← hkey]
  rfl

/-- A policy mentions the keys of its settings. -/
theorem exists_setting_iff {policy : MonitoringPolicy} {key : String} :
    (∃ s ∈ settings tables policy, decide (s.1 = key) = true) ↔
      ∃ revision definition, Defines tables key policy revision definition := by
  constructor
  · rintro ⟨s, hs, hkey⟩
    obtain ⟨⟨k, value⟩, hlast⟩ :=
      exists_lastWhere (p := fun s => decide (s.1 = key)) hs hkey
    obtain rfl : k = key := of_decide_eq_true (lastWhere_mem hlast).2
    obtain ⟨revision, definition, hdefines, -⟩ := defines_of_setting hlast
    exact ⟨revision, definition, hdefines⟩
  · rintro ⟨revision, definition, hdefines⟩
    have hlast := setting_of_defines hdefines
    exact ⟨_, (lastWhere_mem hlast).1, (lastWhere_mem hlast).2⟩

/-! ## The dictionary -/

theorem mem_merged_iff (hids : (tables.policies.map (·.id)).Nodup)
    {key : String}
    {check : EffectiveCheck} :
    (key, check) ∈ merged tables dir agent ↔
      ∃ policy revision definition,
        Decides tables dir agent key policy revision definition ∧
        definition.enabled = true ∧
        check = checkOf policy revision definition := by
  rw [merged, mem_overlays, lastWhere_flatMap_iff (ranked_sorted hids)]
  constructor
  · rintro ⟨policy, hpolicy, hlast, hgreatest⟩
    obtain ⟨revision, definition, hdefines, hvalue⟩ := defines_of_setting hlast
    refine ⟨policy, revision, definition,
      ⟨mem_ranked.mp hpolicy, hdefines, ?_⟩, ?_⟩
    · intro policy' revision' definition' happlies' hdefines'
      exact hgreatest policy' (mem_ranked.mpr happlies')
        (exists_setting_iff.mpr ⟨revision', definition', hdefines'⟩)
    · rw [setting] at hvalue
      cases henabled : definition.enabled with
      | false => rw [henabled] at hvalue; exact nomatch hvalue
      | true => rw [henabled] at hvalue; exact ⟨rfl, Option.some_inj.mp hvalue⟩
  · rintro ⟨policy, revision, definition, ⟨happlies, hdefines, hgreatest⟩,
      henabled, rfl⟩
    refine ⟨policy, mem_ranked.mpr happlies, ?_, ?_⟩
    · rw [setting_of_defines hdefines, setting, henabled]
      rfl
    · intro policy' hpolicy' hmentions
      obtain ⟨revision', definition', hdefines'⟩ :=
        exists_setting_iff.mp hmentions
      exact hgreatest policy' revision' definition'
        (mem_ranked.mp hpolicy') hdefines'

/-- An entry stands under its own key. -/
theorem key_of_mem_merged (hids : (tables.policies.map (·.id)).Nodup)
    {entry : String × EffectiveCheck} (h : entry ∈ merged tables dir agent) :
    entry.1 = entry.2.definition.key := by
  have hentry : (entry.1, entry.2) ∈ merged tables dir agent := h
  obtain ⟨policy, revision, definition, hdecides, -, hcheck⟩ :=
    (mem_merged_iff hids).mp hentry
  rw [hcheck]
  exact (of_decide_eq_true (lastWhere_mem hdecides.defines.2).2).symm

theorem mem_resolve_iff (hids : (tables.policies.map (·.id)).Nodup)
    {check : EffectiveCheck} :
    check ∈ resolveEffectivePolicy tables dir agent ↔
      (check.definition.key, check) ∈ merged tables dir agent := by
  rw [resolve_eq, List.mem_map]
  constructor
  · rintro ⟨entry, hentry, rfl⟩
    have hmem := (List.mem_insertionSort _).mp hentry
    rw [← key_of_mem_merged hids hmem]
    exact hmem
  · exact fun h => ⟨_, (List.mem_insertionSort _).mpr h, rfl⟩

theorem resolve_sorted (hids : (tables.policies.map (·.id)).Nodup) :
    (resolveEffectivePolicy tables dir agent).Pairwise
      fun a b => a.definition.key < b.definition.key := by
  have hperm :=
    List.perm_insertionSort (fun a b : String × EffectiveCheck => a.1 ≤ b.1)
    (merged tables dir agent)
  have hweak : ((merged tables dir agent).insertionSort
      fun a b => a.1 ≤ b.1).Pairwise fun a b => a.1 ≤ b.1 :=
    List.pairwise_insertionSort _ _
  have hnodup : (((merged tables dir agent).insertionSort
      fun a b => a.1 ≤ b.1).map Prod.fst).Nodup :=
    (hperm.map _).nodup_iff.mpr nodup_overlays
  have hne : ((merged tables dir agent).insertionSort
      fun a b => a.1 ≤ b.1).Pairwise fun a b => a.1 ≠ b.1 :=
    List.pairwise_map.mp hnodup
  rw [resolve_eq, List.pairwise_map]
  refine (hweak.imp₂ (fun a b => lt_of_le_of_ne) hne).imp_of_mem ?_
  intro a b ha hb hlt
  rw [← key_of_mem_merged hids (hperm.mem_iff.mp ha),
    ← key_of_mem_merged hids (hperm.mem_iff.mp hb)]
  exact hlt

/-! ## Removals -/

/-- A policy that defines a key as disabled takes it out of what the policies
before it left. -/
theorem not_mem_mergePolicy {effective : List (String × EffectiveCheck)}
    {policy : MonitoringPolicy} {revision : MonitoringPolicyRevision}
    {definition : CheckDefinition} {key : String}
    (hdefines : Defines tables key policy revision definition)
    (hdisabled : definition.enabled = false) :
    key ∉ (mergePolicy tables effective policy).map Prod.fst := by
  intro hmem
  obtain ⟨⟨k, check⟩, hentry, rfl⟩ := List.mem_map.mp hmem
  rw [mergePolicy_eq, mem_foldl_overlay, setting_of_defines hdefines, setting,
    hdisabled] at hentry
  rcases hentry with h | ⟨h, -⟩
  · exact nomatch h
  · exact nomatch h

/-- If the key is there in the end, a strictly greater policy has restored
it. -/
theorem restored_by_greater (hids : (tables.policies.map (·.id)).Nodup)
    {policy : MonitoringPolicy} {revision : MonitoringPolicyRevision}
    {definition : CheckDefinition} {check : EffectiveCheck}
    (happlies : Applies tables dir agent policy)
    (hdefines : Defines tables check.definition.key policy revision definition)
    (hdisabled : definition.enabled = false)
    (hcheck : check ∈ resolveEffectivePolicy tables dir agent) :
    ∃ policy' revision', Applies tables dir agent policy' ∧
      Defines tables check.definition.key policy' revision' check.definition ∧
      check = checkOf policy' revision' check.definition ∧
      rank policy < rank policy' := by
  obtain ⟨policy', revision', definition', hdecides, henabled, heq⟩ :=
    (mem_merged_iff hids).mp ((mem_resolve_iff hids).mp hcheck)
  have hdefinition : check.definition = definition' :=
    congrArg (·.definition) heq
  refine ⟨policy', revision', hdecides.applies, ?_, ?_, ?_⟩
  · nth_rewrite 2 [hdefinition]
    exact hdecides.defines
  · rw [hdefinition]
    exact heq
  · -- The same policy would define the key as disabled and as enabled.
    have hle := hdecides.greatest _ _ _ happlies hdefines
    refine lt_of_le_of_ne hle fun hrank => ?_
    have hid : policy.id = policy'.id :=
      congrArg (fun r => (ofLex (ofLex r).2).2) hrank
    obtain ⟨hrevision', hlast'⟩ := hdecides.defines
    obtain ⟨hrevision, hlast⟩ := hdefines
    rw [← hid, hrevision] at hrevision'
    rw [← Option.some_inj.mp hrevision', hlast] at hlast'
    rw [Option.some_inj.mp hlast', henabled] at hdisabled
    exact nomatch hdisabled

/-- The checks of an agent are those whose greatest policy defines them as
enabled, each once and in the order of the keys. A disabled definition takes
the key out, and what is there in the end comes from a strictly greater
policy. -/
theorem effective_iff_greatest_enables (tables : PolicyTables) (dir : Directory)
    (agent : AgentPlace) (hids : (tables.policies.map (·.id)).Nodup) :
    (resolveEffectivePolicy tables dir agent).Pairwise
        (fun a b => a.definition.key < b.definition.key) ∧
      (∀ check, check ∈ resolveEffectivePolicy tables dir agent ↔
        ∃ policy revision definition,
          Decides tables dir agent check.definition.key policy revision
            definition ∧
          definition.enabled = true ∧
          check = checkOf policy revision definition) ∧
      (∀ key policy revision definition, Applies tables dir agent policy →
        Defines tables key policy revision definition →
        definition.enabled = false →
        (∀ effective,
          key ∉ (mergePolicy tables effective policy).map Prod.fst) ∧
          ∀ check ∈ resolveEffectivePolicy tables dir agent,
            check.definition.key = key →
            ∃ policy' revision', Applies tables dir agent policy' ∧
              Defines tables key policy' revision' check.definition ∧
              check = checkOf policy' revision' check.definition ∧
              rank policy < rank policy') := by
  refine ⟨resolve_sorted hids, fun check => ?_, ?_⟩
  · rw [mem_resolve_iff hids, mem_merged_iff hids]
  · intro key policy revision definition happlies hdefines hdisabled
    refine ⟨fun effective => not_mem_mergePolicy hdefines hdisabled, ?_⟩
    rintro check hcheck rfl
    exact restored_by_greater hids happlies hdefines hdisabled hcheck

/-! ## An opt-out -/

def cpuCheck (enabled : Bool) : CheckDefinition where
  key := "cpu"
  type := .cpu
  enabled
  intervalSeconds := 60
  threshold :=
    some { op := .gt, warning := none, critical := some hundredDouble }
  key_ok := by decide
  interval_ok := by decide
  threshold_ok := nofun
  patchAge_ok := nofun

/-- A check for all agents, which one agent opts out of. -/
def optOutTables : PolicyTables where
  policies :=
    [⟨"p", "default", .global, none, true, 0⟩,
      ⟨"q", "quiet", .agent, some "a", true, 1⟩]
  revisions := [⟨"v", "p", 1, [cpuCheck true]⟩, ⟨"w", "q", 1, [cpuCheck false]⟩]

theorem effective_opted_out :
    (optOutTables.policies.map (·.id)).Nodup ∧
      "cpu" ∉ (resolveEffectivePolicy optOutTables
        ⟨fun _ => some "site", fun _ => none⟩ ⟨"a", "site"⟩).map
          (·.definition.key) := by
  have hids : (optOutTables.policies.map (·.id)).Nodup := by decide
  refine ⟨hids, fun hmem => ?_⟩
  obtain ⟨check, hcheck, hkey⟩ := List.mem_map.mp hmem
  obtain ⟨policy, -, happlies, -, -, hrank⟩ :=
    ((effective_iff_greatest_enables optOutTables
      ⟨fun _ => some "site", fun _ => none⟩ ⟨"a", "site"⟩ hids).2.2 "cpu"
      ⟨"q", "quiet", .agent, some "a", true, 1⟩ ⟨"w", "q", 1, [cpuCheck false]⟩
      (cpuCheck false) ⟨by decide, rfl, by decide⟩ ⟨rfl, rfl⟩ rfl).2
      check hcheck hkey
  -- No policy is greater than the agent's own.
  rcases List.mem_pair.mp happlies.1 with rfl | rfl
  · exact absurd hrank (by decide)
  · exact absurd hrank (lt_irrefl _)

end NodeLink.Proofs.EffectivePolicy
