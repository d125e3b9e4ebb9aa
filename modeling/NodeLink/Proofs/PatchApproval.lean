import Mathlib
import NodeLink.Agent.UpdateInstall
import NodeLink.Lib.Loops
import NodeLink.Proofs.CanonicalAgreement
import NodeLink.Server.PatchPolicies

/-!
# What the patch gate approves and what the agent selects

The gate looks the identifiers of a request up in the scan, one update for
each, and passes an explicit selection on as it came. The agent reads the
payload by its own rules, and its first attempt selects every update that
carries one of the identifiers. Where the gate allows, the updates it has judged are approved;
what remains is what the agent picks beside them.
-/

namespace NodeLink.Proofs

open Lib Server Server.PatchPolicies Agent.UpdateInstall

/-- The members as the agent reads them. -/
def sentMembers (d : PyDict) : Members :=
  d.members.map fun m => (textOf m.1, onTheWire m.2)

/-! ## Targets -/

section Targets

variable {toUpper toLower : String → String} {same : String → String → Bool}
  {t t' : InstallTargets}

theorem normalizeInstallTargets_eq_some
    (h : normalizeInstallTargets toUpper toLower t = some t') :
    t'.all = t.all ∧
      (∀ kb, kb ∈ t'.kbIDs ↔ ∃ value ∈ t.kbIDs, normalKB toUpper value = kb) ∧
      ∀ id, id ∈ t'.updateIDs ↔
        ∃ value ∈ t.updateIDs, normalUpdateID toLower value = id := by
  unfold normalizeInstallTargets at h
  simp only [] at h
  split at h
  · cases h
  · split at h
    · cases h
    · split at h
      · cases h
      · split at h
        · cases h
        · obtain rfl := Option.some.inj h
          simp

/-- The script picks an update when an identifier of it is among the
values. -/
theorem picks_iff (h : normalizeInstallTargets toUpper toLower t = some t')
    (u : ApplicableUpdate) :
    picks same t' u = true ↔
      t.all = true ∨
      (∃ value ∈ t.updateIDs,
        same (normalUpdateID toLower value) u.updateID = true) ∨
      ∃ value ∈ t.kbIDs, ∃ kb ∈ u.kbArticleIDs,
        (same (normalKB toUpper value) ("KB" ++ kb)
          || same (normalKB toUpper value) kb) = true := by
  obtain ⟨hall, hkbs, hids⟩ := normalizeInstallTargets_eq_some h
  simp only [picks, Bool.or_eq_true, List.any_eq_true, hall, hkbs, hids,
    or_assoc]
  refine or_congr_right (or_congr ?_ ?_)
  · constructor
    · rintro ⟨_, ⟨value, hvalue, rfl⟩, hsame⟩
      exact ⟨value, hvalue, hsame⟩
    · rintro ⟨value, hvalue, hsame⟩
      exact ⟨_, ⟨value, hvalue, rfl⟩, hsame⟩
  · constructor
    · rintro ⟨kb, hkb, _, ⟨value, hvalue, rfl⟩, hsame⟩
      exact ⟨value, hvalue, kb, hkb, hsame⟩
    · rintro ⟨value, hvalue, kb, hkb, hsame⟩
      exact ⟨kb, hkb, _, ⟨value, hvalue, rfl⟩, hsame⟩

end Targets

/-! ## Reading a payload -/

/-- The targets the agent reads, by the members that name updates alone. -/
def readTargets (members : Members) : Option InstallTargets := do
  let installAll ← readField "install_all" decodeBool false members
  let kbIDs ← readField "kb_ids" decodeSlice {} members
  let targetKBs ← readField "target_kbs" decodeSlice {} members
  let updateIDs ← readField "update_ids" decodeSlice {} members
  some ⟨installAll, kbIDs.items ++ targetKBs.items, updateIDs.items⟩

/-- The members that instruct rather than select can be decoded. -/
def InstructionsReadable (members : Members) : Prop :=
  (readField "max_attempts" decodeInt 0 members).isSome = true ∧
    (readField "reboot" decodeReboot none members).isSome = true

theorem selects_iff {toUpper toLower : String → String}
    {same : String → String → Bool} {members : Members} {u : ApplicableUpdate}
    (hreadable : InstructionsReadable members) :
    selects toUpper toLower same members u = true ↔
      ∃ t t', readTargets members = some t ∧
        normalizeInstallTargets toUpper toLower t = some t' ∧
        picks same t' u = true := by
  obtain ⟨attempts, hattempts⟩ := Option.isSome_iff_exists.mp hreadable.1
  obtain ⟨reboot, hreboot⟩ := Option.isSome_iff_exists.mp hreadable.2
  have hread : (unmarshalPayload members).map InstallPayload.targets =
      readTargets members := by
    simp only [unmarshalPayload, readTargets, hattempts, hreboot]
    cases readField "install_all" decodeBool false members with
    | none => rfl
    | some installAll =>
        cases readField "kb_ids" decodeSlice {} members with
        | none => rfl
        | some kbIDs =>
            cases readField "target_kbs" decodeSlice {} members with
            | none => rfl
            | some targetKBs =>
                cases readField "update_ids" decodeSlice {} members with
                | none => rfl
                | some updateIDs => rfl
  rw [← hread]
  unfold selects
  cases unmarshalPayload members with
  | none => simp
  | some payload =>
      cases hnormal : normalizeInstallTargets toUpper toLower payload.targets with
      | none => simp [hnormal]
      | some t' => simp [hnormal]

theorem filter_setMember {key : PyStr} {value : PyJson} {p : PyStr → Bool}
    (hp : p key = false) (ms : List (PyStr × PyJson)) :
    (setMember key value ms).filter (fun m => p m.1) =
      ms.filter fun m => p m.1 := by
  unfold setMember
  split
  · next h =>
    clear h
    induction ms with
    | nil => rfl
    | cons m ms ih =>
        by_cases hm : m.1 = key
        · simp [hm, hp, ih]
        · simp [hm, List.filter_cons, ih]
  · simp [hp]

/-- A member of another name does not bear on a field. -/
theorem readField_set {α : Type} {name key : String}
    {decode : α → Json String String → Option α} {zero : α} {d : PyDict}
    {value : PyJson} (hvalue : value.DistinctKeys)
    (hkey : readsAs name key = false) :
    readField name decode zero (sentMembers (d.set key value hvalue)) =
      readField name decode zero (sentMembers d) := by
  have hfilter : (setMember (py key) value d.members).filter
      (fun m => readsAs name (textOf m.1)) =
        d.members.filter fun m => readsAs name (textOf m.1) :=
    filter_setMember (p := fun k => readsAs name (textOf k))
      (by simpa using hkey) d.members
  simp only [readField, sentMembers, PyDict.set, List.filter_map,
    Function.comp_def, hfilter]

/-- The gate's instructions leave the selection. -/
theorem readTargets_instruct (padYear : Bool) (decision : PatchDecision)
    (d : PyDict) :
    readTargets (sentMembers (instruct padYear decision d)) =
      readTargets (sentMembers d) := by
  have hset : ∀ (d : PyDict) key value hvalue,
      key = "max_attempts" ∨ key = "reboot" →
        readTargets (sentMembers (d.set key value hvalue)) =
          readTargets (sentMembers d) := by
    rintro d key value hvalue (rfl | rfl)
    · simp only [readTargets, readField_set hvalue (by decide :
        readsAs "install_all" "max_attempts" = false), readField_set hvalue
        (by decide : readsAs "kb_ids" "max_attempts" = false),
        readField_set hvalue (by decide :
        readsAs "target_kbs" "max_attempts" = false), readField_set hvalue
        (by decide : readsAs "update_ids" "max_attempts" = false)]
    · simp only [readTargets, readField_set hvalue (by decide :
        readsAs "install_all" "reboot" = false), readField_set hvalue
        (by decide : readsAs "kb_ids" "reboot" = false),
        readField_set hvalue (by decide :
        readsAs "target_kbs" "reboot" = false), readField_set hvalue
        (by decide : readsAs "update_ids" "reboot" = false)]
  unfold instruct
  cases decision.maxAttempts with
  | none => rfl
  | some attempts =>
      cases decision.reboot with
      | none => exact hset _ _ _ _ (.inl rfl)
      | some evidence =>
          exact (hset _ _ _ _ (.inr rfl)).trans (hset _ _ _ _ (.inl rfl))

section Field

variable {α : Type} {name key : String}
  {decode : α → Json String String → Option α} {zero : α}
  {value : Json String String} {members : Members}

theorem readField_nil : readField name decode zero [] = some zero := rfl

theorem readField_cons_other (h : readsAs name key = false) :
    readField name decode zero ((key, value) :: members) =
      readField name decode zero members := by
  simp [readField, h]

theorem readField_cons_own (h : readsAs name key = true) :
    readField name decode zero ((key, value) :: members) =
      (decode zero value).bind fun a => readField name decode a members := by
  simp [readField, h]

end Field

/-- A field whose members can all be decoded can be read. -/
theorem readField_isSome {α : Type} {name : String}
    {decode : α → Json String String → Option α} {zero : α} {members : Members}
    (h : ∀ m ∈ members, readsAs name m.1 = true →
      ∀ old, (decode old m.2).isSome = true) :
    (readField name decode zero members).isSome = true := by
  have hall : ∀ m ∈ members.filter fun m => readsAs name m.1,
      ∀ old, (decode old m.2).isSome = true := fun m hm =>
    h m (List.mem_filter.mp hm).1 (List.mem_filter.mp hm).2
  unfold readField
  generalize members.filter (fun m => readsAs name m.1) = own at hall
  induction own generalizing zero with
  | nil => rfl
  | cons m own ih =>
      obtain ⟨a, ha⟩ := Option.isSome_iff_exists.mp
        (hall m List.mem_cons_self zero)
      rw [List.foldlM_cons, ha]
      exact ih fun m hm => hall m (List.mem_cons_of_mem _ hm)

/-! ## The instructions of the gate -/

/-- Every member the agent reads as an instruction is one the gate sets: the
policy's, for an agent that has the capability. -/
def InstructionsFromPolicy (padYear : Bool) (revision : PolicyRevision)
    (supports : Bool) (sent : PyDict) : Prop :=
  ∀ m ∈ sent.members,
    (readsAs "max_attempts" (textOf m.1) = true → supports = true ∧
      m = (py "max_attempts", .num (.int revision.maxInstallAttempts))) ∧
    (readsAs "reboot" (textOf m.1) = true → supports = true ∧
      revision.rebootPolicy ≠ .never ∧
      ∃ evidence : RebootEvidence, evidence.policy = revision.rebootPolicy ∧
        evidence.delaySeconds = revision.rebootDelaySeconds ∧
        evidence.requiresNoUser = revision.rebootRequiresNoUser ∧
        m = (py "reboot", .obj (rebootMembers padYear evidence)))

/-- The caller's payload has no member that the agent reads as an instruction,
but for those the gate overwrites. -/
def BringsNoInstructions (revision : PolicyRevision) (supports : Bool)
    (payload : PyDict) : Prop :=
  ∀ m ∈ payload.members,
    (readsAs "max_attempts" (textOf m.1) = true →
      m.1 = py "max_attempts" ∧ supports = true) ∧
    (readsAs "reboot" (textOf m.1) = true →
      m.1 = py "reboot" ∧ supports = true ∧ revision.rebootPolicy ≠ .never)

/-- The bounds of `_RebootSettings`. -/
def WithinSchema (revision : PolicyRevision) : Prop :=
  60 ≤ revision.rebootDelaySeconds ∧ revision.rebootDelaySeconds ≤ 3600 ∧
    1 ≤ revision.maxInstallAttempts ∧ revision.maxInstallAttempts ≤ 5

/-- A field of the `reboot` block that the gate signs can be read. -/
theorem readField_evidence {α : Type} {name : String}
    {decode : α → Json String String → Option α} {zero : α} {padYear : Bool}
    {evidence : RebootEvidence}
    (h : ∀ m ∈ rebootMembers padYear evidence, readsAs name (textOf m.1) = true →
      ∀ old, (decode old (onTheWire m.2)).isSome = true) :
    ∃ a, readField name decode zero ((rebootMembers padYear evidence).map
      (Prod.map textOf onTheWire)) = some a := by
  refine Option.isSome_iff_exists.mp (readField_isSome fun m hm hreads old => ?_)
  obtain ⟨own, hown, rfl⟩ := List.mem_map.mp hm
  exact h own hown hreads old

theorem decodeReboot_evidence {padYear : Bool} {evidence : RebootEvidence}
    (hdelay : evidence.delaySeconds ≤ 3600) (old : Option RebootInstruction) :
    (decodeReboot old
      (onTheWire (.obj (rebootMembers padYear evidence)))).isSome = true := by
  have hwire : onTheWire (.obj (rebootMembers padYear evidence)) =
      .obj ((rebootMembers padYear evidence).map (Prod.map textOf onTheWire)) :=
    Json.map_obj _ _ _
  have hparse : Agent.parseInt64 (numberText (.int evidence.delaySeconds)) =
      some (evidence.delaySeconds : Int) := by
    rw [numberText, parseInt64_intDigits (by omega)]
  obtain ⟨policy, hpolicy⟩ : ∃ a, readField "policy" decodeString
      (old.getD {}).policy ((rebootMembers padYear evidence).map
        (Prod.map textOf onTheWire)) = some a := by
    refine readField_evidence ?_
    simp only [rebootMembers, List.forall_mem_cons]
    refine ⟨fun _ _ => rfl, ?_, ?_, ?_, ?_, ?_, fun _ hm => absurd hm List.not_mem_nil⟩ <;>
      exact fun hreads => absurd hreads (by decide)
  obtain ⟨delay, hseconds⟩ : ∃ a, readField "delay_seconds" decodeInt
      (old.getD {}).delaySeconds ((rebootMembers padYear evidence).map
        (Prod.map textOf onTheWire)) = some a := by
    refine readField_evidence ?_
    simp only [rebootMembers, List.forall_mem_cons]
    refine ⟨?_, fun _ _ => ?_, ?_, ?_, ?_, ?_, fun _ hm => absurd hm List.not_mem_nil⟩
    · exact fun hreads => absurd hreads (by decide)
    · show (Agent.parseInt64 _).isSome = true
      rw [hparse]
      rfl
    all_goals exact fun hreads => absurd hreads (by decide)
  obtain ⟨noUser, huser⟩ : ∃ a, readField "requires_no_user" decodeBool
      (old.getD {}).requiresNoUser ((rebootMembers padYear evidence).map
        (Prod.map textOf onTheWire)) = some a := by
    refine readField_evidence ?_
    simp only [rebootMembers, List.forall_mem_cons]
    refine ⟨?_, ?_, fun _ _ => rfl, ?_, ?_, ?_, fun _ hm => absurd hm List.not_mem_nil⟩ <;>
      exact fun hreads => absurd hreads (by decide)
  rw [hwire, decodeReboot, hpolicy, hseconds, huser]
  rfl

/-- What the gate sets can be read. -/
theorem InstructionsFromPolicy.readable {padYear : Bool}
    {revision : PolicyRevision} {supports : Bool} {sent : PyDict}
    (h : InstructionsFromPolicy padYear revision supports sent)
    (hbounds : WithinSchema revision) :
    InstructionsReadable (sentMembers sent) := by
  obtain ⟨-, hdelay, -, hattempts⟩ := hbounds
  constructor
  · refine readField_isSome fun m hm hreads old => ?_
    obtain ⟨own, hown, rfl⟩ := List.mem_map.mp hm
    obtain ⟨-, rfl⟩ := (h own hown).1 hreads
    have hparse : Agent.parseInt64
        (numberText (.int revision.maxInstallAttempts)) =
          some (revision.maxInstallAttempts : Int) := by
      rw [numberText, parseInt64_intDigits (by omega)]
    show (Agent.parseInt64 _).isSome = true
    rw [hparse]
    rfl
  · refine readField_isSome fun m hm hreads old => ?_
    obtain ⟨own, hown, rfl⟩ := List.mem_map.mp hm
    obtain ⟨-, -, evidence, -, hseconds, -, rfl⟩ := (h own hown).2 hreads
    exact decodeReboot_evidence (hseconds ▸ hdelay) old

/-- The members of a payload the gate has instructed. -/
theorem mem_instruct {padYear : Bool} {decision : PatchDecision} {d : PyDict}
    {m : PyStr × PyJson} (h : m ∈ (instruct padYear decision d).members) :
    (∃ attempts, decision.maxAttempts = some attempts ∧
      m = (py "max_attempts", .num (.int attempts))) ∨
    (∃ attempts evidence, decision.maxAttempts = some attempts ∧
      decision.reboot = some evidence ∧
      m = (py "reboot", .obj (rebootMembers padYear evidence))) ∨
    m ∈ d.members ∧
      (decision.maxAttempts.isSome = true → m.1 ≠ py "max_attempts" ∧
        (decision.reboot.isSome = true → m.1 ≠ py "reboot")) := by
  unfold instruct at h
  cases hattempts : decision.maxAttempts with
  | none =>
      rw [hattempts] at h
      exact .inr (.inr ⟨h, fun hsome => nomatch hsome⟩)
  | some attempts =>
      cases hreboot : decision.reboot with
      | none =>
          simp only [hattempts, hreboot] at h
          obtain rfl | ⟨hold, hne⟩ := mem_setMember h
          · exact .inl ⟨attempts, rfl, rfl⟩
          · exact .inr (.inr ⟨hold, fun _ => ⟨hne, fun hsome => nomatch hsome⟩⟩)
      | some evidence =>
          simp only [hattempts, hreboot] at h
          obtain rfl | ⟨h, hreboots⟩ := mem_setMember h
          · exact .inr (.inl ⟨attempts, evidence, rfl, rfl, rfl⟩)
          · obtain rfl | ⟨hold, hne⟩ := mem_setMember h
            · exact .inl ⟨attempts, rfl, rfl⟩
            · exact .inr (.inr ⟨hold, fun _ => ⟨hne, fun _ => hreboots⟩⟩)

theorem mem_setMember_of_ne {key : PyStr} {value : PyJson}
    {ms : List (PyStr × PyJson)} {m : PyStr × PyJson} (hm : m ∈ ms)
    (hne : m.1 ≠ key) : m ∈ setMember key value ms := by
  unfold setMember
  split
  · exact List.mem_map.mpr ⟨m, hm, if_neg hne⟩
  · exact List.mem_append_left _ hm

/-- What the gate does not overwrite, it passes on. -/
theorem mem_instruct_of_kept {padYear : Bool} {decision : PatchDecision}
    {d : PyDict} {m : PyStr × PyJson} (hm : m ∈ d.members)
    (hkept : decision.maxAttempts.isSome = true → m.1 ≠ py "max_attempts" ∧
      (decision.reboot.isSome = true → m.1 ≠ py "reboot")) :
    m ∈ (instruct padYear decision d).members := by
  unfold instruct
  cases hattempts : decision.maxAttempts with
  | none => exact hm
  | some attempts =>
      rw [hattempts] at hkept
      obtain ⟨hcount, hreboots⟩ := hkept rfl
      cases hreboot : decision.reboot with
      | none => exact mem_setMember_of_ne hm hcount
      | some evidence =>
          rw [hreboot] at hreboots
          exact mem_setMember_of_ne (mem_setMember_of_ne hm hcount) (hreboots rfl)

/-- The instructions a policy gives an agent. -/
structure Instructs (revision : PolicyRevision) (supports : Bool)
    (decision : PatchDecision) : Prop where
  attempts : decision.maxAttempts =
    if supports then some revision.maxInstallAttempts else none
  reboot_isSome : decision.reboot.isSome = true ↔
    supports = true ∧ revision.rebootPolicy ≠ .never
  reboot : ∀ evidence, decision.reboot = some evidence →
    evidence.policy = revision.rebootPolicy ∧
      evidence.delaySeconds = revision.rebootDelaySeconds ∧
      evidence.requiresNoUser = revision.rebootRequiresNoUser

theorem instructs_of_allowed {tables : WindowTables} {agent : AgentPlace}
    {supports : Bool} {latest : Option (Option String)}
    {revision : PolicyRevision} {selection : PatchSelection} {now : Int}
    (h : (Server.evaluatePatchInstall tables agent supports latest
      revision.toPatchRevision selection now).outcome = .allowed) :
    Instructs revision supports (Server.evaluatePatchInstall tables agent
      supports latest revision.toPatchRevision selection now) := by
  unfold Server.evaluatePatchInstall at h ⊢
  split
  · next hboth =>
    rw [hboth.2]
    unfold rebootEvidence
    split
    · next hnever => exact ⟨rfl, by simp [hnever], fun _ he => nomatch he⟩
    · next hreboots =>
      refine ⟨rfl, by simp [hreboots], fun evidence he => ?_⟩
      obtain rfl := Option.some.inj he
      exact ⟨rfl, rfl, rfl⟩
  · next hnot =>
    rw [if_neg hnot] at h
    have hlacks : supports = false := by
      by_contra hhas
      exact hnot ⟨h, by simpa using hhas⟩
    rw [hlacks]
    exact ⟨rfl, by simp, fun _ he => nomatch he⟩

/-- The instructions that reach the agent are the policy's just when the
caller brought none that survive. -/
theorem instructionsFromPolicy_iff (padYear : Bool) {revision : PolicyRevision}
    {supports : Bool} {decision : PatchDecision}
    (hd : Instructs revision supports decision) (payload : PyDict) :
    InstructionsFromPolicy padYear revision supports
        (instruct padYear decision payload) ↔
      BringsNoInstructions revision supports payload := by
  have hcounts : decision.maxAttempts.isSome = true ↔ supports = true := by
    rw [hd.attempts]
    cases supports <;> simp
  constructor
  · intro h m hm
    refine ⟨fun hreads => ?_, fun hreads => ?_⟩
    · by_contra hbrings
      have hkept : m ∈ (instruct padYear decision payload).members := by
        refine mem_instruct_of_kept hm fun hsome => ?_
        have hne : m.1 ≠ py "max_attempts" := fun heq =>
          hbrings ⟨heq, hcounts.mp hsome⟩
        refine ⟨hne, fun _ heq => ?_⟩
        rw [heq] at hreads
        exact absurd hreads (by decide)
      obtain ⟨hsupports, rfl⟩ := (h m hkept).1 hreads
      exact hbrings ⟨rfl, hsupports⟩
    · by_contra hbrings
      have hkept : m ∈ (instruct padYear decision payload).members := by
        refine mem_instruct_of_kept hm fun hsome => ⟨fun heq => ?_, fun hreboot heq => ?_⟩
        · rw [heq] at hreads
          exact absurd hreads (by decide)
        · exact hbrings ⟨heq, hd.reboot_isSome.mp hreboot⟩
      obtain ⟨hsupports, hreboots, evidence, -, -, -, rfl⟩ := (h m hkept).2 hreads
      exact hbrings ⟨rfl, hsupports, hreboots⟩
  · intro h m hm
    obtain ⟨attempts, hattempts, rfl⟩ | ⟨attempts, evidence, hattempts, hreboot, rfl⟩ |
      ⟨hold, hkept⟩ := mem_instruct hm
    · have hsupports : supports = true := hcounts.mp (by rw [hattempts]; rfl)
      have hcount : attempts = revision.maxInstallAttempts := by
        rw [hd.attempts, if_pos hsupports] at hattempts
        exact (Option.some.inj hattempts).symm
      have hother : ¬ readsAs "reboot" (textOf (py "max_attempts")) = true := by
        decide
      exact ⟨fun _ => ⟨hsupports, by rw [hcount]⟩, fun hreads => absurd hreads hother⟩
    · obtain ⟨hsupports, hreboots⟩ := hd.reboot_isSome.mp (by rw [hreboot]; rfl)
      obtain ⟨hpolicy, hdelay, huser⟩ := hd.reboot evidence hreboot
      have hother : ¬ readsAs "max_attempts" (textOf (py "reboot")) = true := by
        decide
      exact ⟨fun hreads => absurd hreads hother, fun _ =>
        ⟨hsupports, hreboots, evidence, hpolicy, hdelay, huser, rfl⟩⟩
    · obtain ⟨hattempts, hreboot⟩ := h m hold
      refine ⟨fun hreads => ?_, fun hreads => ?_⟩
      · obtain ⟨hkey, hsupports⟩ := hattempts hreads
        exact absurd hkey (hkept (hcounts.mpr hsupports)).1
      · obtain ⟨hkey, hsupports, hreboots⟩ := hreboot hreads
        exact absurd hkey ((hkept (hcounts.mpr hsupports)).2
          (hd.reboot_isSome.mpr ⟨hsupports, hreboots⟩))

/-! ## What the gate has judged -/

section Judged

variable (ops : PyTextOps) (revision : PolicyRevision) (now : Int)

/-- The rules approve the update. -/
def approvedBy (row : ScannedUpdate) : Bool :=
  match classify ops revision now row with
  | .ok .approve => true
  | _ => false

/-- The gate looked the update up for an identifier of the request. -/
def Judged (missing : List ScannedUpdate) (payload : PyDict)
    (row : ScannedUpdate) : Prop :=
  (∃ keys key, requestedUnder ops payload "kb_ids" ops.upper = .ok keys ∧
    key ∈ keys ∧ lookUp (kbKey ops) missing key = some row) ∨
  ∃ keys key, requestedUnder ops payload "update_ids" ops.lower = .ok keys ∧
    key ∈ keys ∧ lookUp (idKey ops) missing key = some row

variable {ops revision now}

theorem approvedBy_iff {row : ScannedUpdate} :
    approvedBy ops revision now row = true ↔
      classify ops revision now row = .ok .approve := by
  unfold approvedBy
  split
  · next h => simp [h]
  · next h => simpa using h

/-- Keys of which none is blocked have all been approved. -/
theorem approve_of_unblocked {keys : List PyStr} {verdicts : List Verdict}
    {f : PyStr → Except PyError Verdict}
    (hverdicts : List.Forall₂ (fun key v => f key = .ok v) keys verdicts)
    (hblocked : (keys.zip verdicts).filterMap (fun row =>
      if row.2 = .approve then none else some row.1) = []) :
    ∀ key ∈ keys, f key = .ok .approve := by
  induction hverdicts with
  | nil => exact fun key hkey => absurd hkey List.not_mem_nil
  | @cons key v keys verdicts hv hrest ih =>
      rw [List.zip_cons_cons, List.filterMap_cons] at hblocked
      by_cases happrove : v = .approve
      · rw [if_pos happrove] at hblocked
        exact List.forall_mem_cons.mpr ⟨by rw [hv, happrove], ih hblocked⟩
      · rw [if_neg happrove] at hblocked
        cases hblocked

theorem approvedBy_of_judge {missing : List ScannedUpdate}
    {keyOf : ScannedUpdate → Option PyStr} {key : PyStr} {row : ScannedUpdate}
    (h : judge ops revision missing now keyOf key = .ok .approve)
    (hrow : lookUp keyOf missing key = some row) :
    approvedBy ops revision now row = true := by
  rw [judge, hrow] at h
  exact approvedBy_iff.mpr h

/-- Of an explicit selection that is not blocked, every update the gate looked
up is approved. -/
theorem judged_approved {missing : List ScannedUpdate} {payload : PyDict}
    {selection : Selection}
    (h : selectNamed ops revision missing now payload = .ok selection)
    (hblocked : selection.blocked = []) {row : ScannedUpdate}
    (hrow : Judged ops missing payload row) :
    approvedBy ops revision now row = true := by
  simp only [selectNamed, bind_eq_ok, mapM_eq_ok_iff] at h
  obtain ⟨kbs, hkbs, ids, hids, kbVerdicts, hkbVerdicts, idVerdicts,
    hidVerdicts, h⟩ := h
  obtain rfl := Except.ok.inj h
  rw [List.zip_append hkbVerdicts.length_eq, List.filterMap_append,
    List.append_eq_nil_iff] at hblocked
  obtain ⟨keys, key, hkeys, hkey, hfound⟩ | ⟨keys, key, hkeys, hkey, hfound⟩ := hrow
  · obtain rfl := Except.ok.inj (hkbs.symm.trans hkeys)
    exact approvedBy_of_judge
      (approve_of_unblocked hkbVerdicts hblocked.1 key hkey) hfound
  · obtain rfl := Except.ok.inj (hids.symm.trans hkeys)
    exact approvedBy_of_judge
      (approve_of_unblocked hidVerdicts hblocked.2 key hkey) hfound

/-- The rows whose verdict is to approve are the approved ones. -/
theorem approved_rows {missing : List ScannedUpdate} {verdicts : List Verdict}
    (h : List.Forall₂ (fun row v => classify ops revision now row = .ok v)
      missing verdicts) :
    ((missing.zip verdicts).filterMap fun row =>
      if row.2 = .approve then some row.1 else none) =
        missing.filter (approvedBy ops revision now) := by
  induction h with
  | nil => rfl
  | @cons row v missing verdicts hv hrest ih =>
      rw [List.zip_cons_cons, List.filterMap_cons]
      by_cases happrove : v = .approve
      · have hyes : approvedBy ops revision now row = true :=
          approvedBy_iff.mpr (by rw [hv, happrove])
        rw [if_pos happrove, List.filter_cons_of_pos hyes]
        exact congrArg _ ih
      · have hno : ¬ approvedBy ops revision now row = true := by
          rw [approvedBy_iff, hv]
          exact fun h => happrove (Except.ok.inj h)
        rw [if_neg happrove, List.filter_cons_of_neg hno]
        exact ih

end Judged

/-! ## The narrowed payload -/

theorem decodeItems_strings (cells values : List String) :
    decodeItems cells cells.length (values.map .str) =
      some (cells ++ values) := by
  induction values generalizing cells with
  | nil => simp [decodeItems]
  | cons value values ih =>
      have hgrown := ih (cells ++ [value])
      rw [List.length_append, List.length_singleton] at hgrown
      have hend : cells.drop (cells.length + 1) = [] :=
        List.drop_eq_nil_of_le (by omega)
      simpa [decodeItems, decodeString, hend] using hgrown

/-- A fresh slice holds the strings of the array. -/
theorem decodeSlice_strings (values : List String) :
    ∃ slice, decodeSlice {} (.arr (values.map .str)) = some slice ∧
      slice.items = values := by
  cases values with
  | nil => exact ⟨{}, rfl, rfl⟩
  | cons value values =>
      have hitems := decodeItems_strings [] (value :: values)
      refine ⟨⟨value :: values, (value :: values).length⟩, ?_, ?_⟩
      · rw [List.map_cons] at hitems ⊢
        simp only [decodeSlice]
        rw [show decodeItems ([] : List String) 0 _ = some (value :: values) from
          hitems]
        simp
      · simp [Slice.items]

/-- The agent reads the identifiers that were approved. -/
theorem readTargets_narrowed (kbs ids : List PyStr) :
    readTargets (sentMembers (narrowedPayload kbs ids)) =
      some ⟨false, kbs.map textOf, ids.map textOf⟩ := by
  have hwire : ∀ values : List PyStr, onTheWire (.arr (values.map .str)) =
      .arr ((values.map textOf).map .str) := fun values => by
    rw [onTheWire, Json.map_arr, List.map_map, List.map_map]
    rfl
  have hmembers : sentMembers (narrowedPayload kbs ids) =
      [("install_all", .bool false),
        ("kb_ids", .arr ((kbs.map textOf).map .str)),
        ("update_ids", .arr ((ids.map textOf).map .str))] := by
    simp only [sentMembers, narrowedPayload, List.map_cons, List.map_nil,
      textOf_py, hwire]
    rfl
  obtain ⟨kbSlice, hkbSlice, hkbItems⟩ := decodeSlice_strings (kbs.map textOf)
  obtain ⟨idSlice, hidSlice, hidItems⟩ := decodeSlice_strings (ids.map textOf)
  have allOwn : readsAs "install_all" "install_all" = true := by decide
  have allKB : readsAs "install_all" "kb_ids" = false := by decide
  have allID : readsAs "install_all" "update_ids" = false := by decide
  have kbAll : readsAs "kb_ids" "install_all" = false := by decide
  have kbOwn : readsAs "kb_ids" "kb_ids" = true := by decide
  have kbID : readsAs "kb_ids" "update_ids" = false := by decide
  have targetAll : readsAs "target_kbs" "install_all" = false := by decide
  have targetKB : readsAs "target_kbs" "kb_ids" = false := by decide
  have targetID : readsAs "target_kbs" "update_ids" = false := by decide
  have idAll : readsAs "update_ids" "install_all" = false := by decide
  have idKB : readsAs "update_ids" "kb_ids" = false := by decide
  have idOwn : readsAs "update_ids" "update_ids" = true := by decide
  have hread : readField "install_all" decodeBool false
      (sentMembers (narrowedPayload kbs ids)) = some false ∧
    readField "kb_ids" decodeSlice {}
      (sentMembers (narrowedPayload kbs ids)) = some kbSlice ∧
    readField "target_kbs" decodeSlice {}
      (sentMembers (narrowedPayload kbs ids)) = some {} ∧
    readField "update_ids" decodeSlice {}
      (sentMembers (narrowedPayload kbs ids)) = some idSlice := by
    simp only [hmembers, readField_cons_own allOwn, readField_cons_other allKB,
      readField_cons_other allID, readField_cons_other kbAll,
      readField_cons_own kbOwn, readField_cons_other kbID,
      readField_cons_other targetAll, readField_cons_other targetKB,
      readField_cons_other targetID, readField_cons_other idAll,
      readField_cons_other idKB, readField_cons_own idOwn, readField_nil,
      hkbSlice, hidSlice, Option.bind_some, decodeBool, and_self]
  obtain ⟨hall, hkb, htarget, hid⟩ := hread
  have hempty : ({} : Slice).items = [] := rfl
  simp only [readTargets, hall, hkb, htarget, hid]
  simp [hkbItems, hidItems, hempty]

/-! ## Approval is complete -/

/-- An update of a scan: the row the server holds, and what Windows Update
tells the agent of it. -/
structure EndpointUpdate where
  row : ScannedUpdate
  applicable : ApplicableUpdate
  deriving DecidableEq, Repr

section Approval

variable (ops : PyTextOps) (padYear : Bool) (toUpper toLower : String → String)
  (same : String → String → Bool) (revision : PolicyRevision) (now : Int)
  (updates : List EndpointUpdate)

/-- Every update the agent's first attempt selects is approved by the rules. -/
def SelectsApproved (sent : PyDict) : Prop :=
  ∀ u ∈ updates,
    selects toUpper toLower same (sentMembers sent) u.applicable = true →
      approvedBy ops revision now u.row = true

/-- The rows the rules approve. -/
def approvedRows : List ScannedUpdate :=
  (updates.map (·.row)).filter (approvedBy ops revision now)

/-- The identifiers all updates are narrowed to. -/
def approvedTargets : InstallTargets where
  all := false
  kbIDs := (sortedSet
    ((approvedRows ops revision now updates).filterMap (kbKey ops))).map textOf
  updateIDs := (sortedSet (((approvedRows ops revision now updates).filter
    fun row => (kbKey ops row).isNone).filterMap (idKey ops))).map textOf

/-- The update carries the identifier a row is installed by: the row's KB
number, or its update ID when it has none. -/
def SharesIdentifier (u : EndpointUpdate) (row : ScannedUpdate) : Prop :=
  (∃ key, kbKey ops row = some key ∧ ∃ kb ∈ u.applicable.kbArticleIDs,
    (same (normalKB toUpper (textOf key)) ("KB" ++ kb)
      || same (normalKB toUpper (textOf key)) kb) = true) ∨
  (kbKey ops row = none ∧ ∃ key, idKey ops row = some key ∧
    same (normalUpdateID toLower (textOf key)) u.applicable.updateID = true)

/-- No update the rules leave out carries an identifier of an approved one,
where the agent takes the approved identifiers. -/
def NoneShared : Prop :=
  (normalizeInstallTargets toUpper toLower
    (approvedTargets ops revision now updates)).isSome = true →
    ∀ u ∈ updates, ∀ row ∈ approvedRows ops revision now updates,
      SharesIdentifier ops toUpper toLower same u row →
        approvedBy ops revision now u.row = true

/-- No update the rules leave out is picked by the members the agent reads,
beside those the gate looked up. -/
def NoneSlips (payload : PyDict) : Prop :=
  ∀ t t', readTargets (sentMembers payload) = some t →
    normalizeInstallTargets toUpper toLower t = some t' →
      ∀ u ∈ updates, picks same t' u.applicable = true →
        ¬ Judged ops (updates.map (·.row)) payload u.row →
          approvedBy ops revision now u.row = true

variable {ops padYear toUpper toLower same revision now updates}

theorem mem_sortedSet {values : List PyStr} {value : PyStr} :
    value ∈ sortedSet values ↔ value ∈ values := by
  rw [sortedSet, List.mem_insertionSort, List.mem_dedup]

theorem selectsApproved_narrowed {sent : PyDict}
    (hreadable : InstructionsReadable (sentMembers sent))
    (hread : readTargets (sentMembers sent) =
      some (approvedTargets ops revision now updates)) :
    SelectsApproved ops toUpper toLower same revision now updates sent ↔
      NoneShared ops toUpper toLower same revision now updates := by
  -- what the agent picks is what shares an identifier with an approved row
  have hpicks : ∀ t', normalizeInstallTargets toUpper toLower
      (approvedTargets ops revision now updates) = some t' →
        ∀ u : EndpointUpdate, picks same t' u.applicable = true ↔
          ∃ row ∈ approvedRows ops revision now updates,
            SharesIdentifier ops toUpper toLower same u row := by
    intro t' ht' u
    rw [picks_iff ht']
    simp only [approvedTargets, List.mem_map, mem_sortedSet, List.mem_filterMap,
      List.mem_filter, Option.isNone_iff_eq_none, SharesIdentifier,
      Bool.false_eq_true, false_or]
    constructor
    · rintro (⟨_, ⟨key, ⟨row, ⟨hrow, hnoKB⟩, hkey⟩, rfl⟩, hsame⟩ |
        ⟨_, ⟨key, ⟨row, hrow, hkey⟩, rfl⟩, hsame⟩)
      · exact ⟨row, hrow, .inr ⟨hnoKB, key, hkey, hsame⟩⟩
      · exact ⟨row, hrow, .inl ⟨key, hkey, hsame⟩⟩
    · rintro ⟨row, hrow, ⟨key, hkey, hsame⟩ | ⟨hnoKB, key, hkey, hsame⟩⟩
      · exact .inr ⟨_, ⟨key, ⟨row, hrow, hkey⟩, rfl⟩, hsame⟩
      · exact .inl ⟨_, ⟨key, ⟨row, ⟨hrow, hnoKB⟩, hkey⟩, rfl⟩, hsame⟩
  simp only [SelectsApproved, NoneShared, selects_iff hreadable, hread,
    Option.some.injEq]
  constructor
  · intro h hsome u hu row hrow hshares
    obtain ⟨t', ht'⟩ := Option.isSome_iff_exists.mp hsome
    exact h u hu ⟨_, t', rfl, ht', (hpicks t' ht' u).mpr ⟨row, hrow, hshares⟩⟩
  · rintro h u hu ⟨t, t', rfl, ht', hpick⟩
    obtain ⟨row, hrow, hshares⟩ := (hpicks t' ht' u).mp hpick
    exact h (by rw [ht']; rfl) u hu row hrow hshares

theorem selectsApproved_named {sent payload : PyDict}
    (hreadable : InstructionsReadable (sentMembers sent))
    (hread : readTargets (sentMembers sent) = readTargets (sentMembers payload))
    (hjudged : ∀ row, Judged ops (updates.map (·.row)) payload row →
      approvedBy ops revision now row = true) :
    SelectsApproved ops toUpper toLower same revision now updates sent ↔
      NoneSlips ops toUpper toLower same revision now updates payload := by
  simp only [SelectsApproved, NoneSlips, selects_iff hreadable, hread]
  constructor
  · intro h t t' ht ht' u hu hpick _
    exact h u hu ⟨t, t', ht, ht', hpick⟩
  · rintro h u hu ⟨t, t', ht, ht', hpick⟩
    by_cases hlooked : Judged ops (updates.map (·.row)) payload u.row
    · exact hjudged u.row hlooked
    · exact h t t' ht ht' u hu hpick hlooked

/-- The payload all updates are narrowed to. -/
theorem selectAll_ok {selection : Selection}
    (h : selectAll ops revision (updates.map (·.row)) now = .ok selection) :
    readTargets (sentMembers selection.payload) =
        some (approvedTargets ops revision now updates) ∧
      ∀ supports, BringsNoInstructions revision supports selection.payload := by
  simp only [selectAll, bind_eq_ok, mapM_eq_ok_iff] at h
  obtain ⟨verdicts, hverdicts, h⟩ := h
  obtain rfl := Except.ok.inj h
  refine ⟨?_, fun supports => ?_⟩
  · rw [readTargets_narrowed, approved_rows hverdicts]
    rfl
  · have attemptsAll : ¬ readsAs "max_attempts" (textOf (py "install_all")) = true := by
      decide
    have attemptsKB : ¬ readsAs "max_attempts" (textOf (py "kb_ids")) = true := by
      decide
    have attemptsID : ¬ readsAs "max_attempts" (textOf (py "update_ids")) = true := by
      decide
    have rebootAll : ¬ readsAs "reboot" (textOf (py "install_all")) = true := by
      decide
    have rebootKB : ¬ readsAs "reboot" (textOf (py "kb_ids")) = true := by decide
    have rebootID : ¬ readsAs "reboot" (textOf (py "update_ids")) = true := by
      decide
    simp only [BringsNoInstructions, narrowedPayload, List.forall_mem_cons]
    exact ⟨⟨fun h => absurd h attemptsAll, fun h => absurd h rebootAll⟩,
      ⟨fun h => absurd h attemptsKB, fun h => absurd h rebootKB⟩,
      ⟨fun h => absurd h attemptsID, fun h => absurd h rebootID⟩,
      fun _ hm => absurd hm List.not_mem_nil⟩

theorem unblocked_of_allowed {tables : WindowTables} {agent : AgentPlace}
    {supports : Bool} {latest : Option (Option String)}
    {settings : PatchRevision} {selection : Selection}
    (hnamed : selection.installAll = false)
    (h : (Server.evaluatePatchInstall tables agent supports latest settings
      selection.summary now).outcome = .allowed) : selection.blocked = [] := by
  have houtcome : patchOutcome settings selection.summary
      (tables.active agent now) = .allowed := by
    unfold Server.evaluatePatchInstall at h
    split at h
    · next hboth => exact hboth.1
    · exact h
  by_contra hblocked
  unfold patchOutcome at houtcome
  have hsummary : selection.summary.blocked ≠ [] := by
    simpa [Selection.summary] using hblocked
  have hfalse : selection.summary.installAll = false := hnamed
  simp only [hfalse] at houtcome
  split at houtcome
  · cases houtcome
  · exact hsummary (by simpa using houtcome)

/-- Patch approval, where the gate allows: the agent selects only approved
updates, on the policy's instructions alone, just when, of a request for all
updates, no update that is left out carries an identifier of an approved one,
and, of an explicit selection, no such update is picked beside those the gate
looked up and the payload brings no instructions that the gate does not
overwrite. -/
theorem patchApproval_iff {tables : PatchTables} {agent : ManagedAgent}
    {policy : PatchApprovalPolicy} {payload : PyDict} {d : InstallDecision}
    (hpolicy : resolveEffectivePatchPolicy tables agent.toAgentPlace =
      some (policy, revision))
    (hbounds : WithinSchema revision)
    (hscan : tables.missing agent.id = updates.map (·.row))
    (h : PatchPolicies.evaluatePatchInstall ops padYear tables agent payload now
      = .ok (some d))
    (hallowed : d.outcome = .allowed) :
    (SelectsApproved ops toUpper toLower same revision now updates d.payload ∧
      InstructionsFromPolicy padYear revision
        (patchRebootCapability ∈ agent.supportedCapabilities) d.payload) ↔
      if asksForAll payload = true then
        NoneShared ops toUpper toLower same revision now updates
      else
        NoneSlips ops toUpper toLower same revision now updates payload ∧
          BringsNoInstructions revision
            (patchRebootCapability ∈ agent.supportedCapabilities) payload := by
  obtain ⟨selection, hselect, hpayload, houtcome⟩ : ∃ selection,
      select ops revision (updates.map (·.row)) now payload = .ok selection ∧
      d.payload = instruct padYear (Server.evaluatePatchInstall
        tables.toWindowTables agent.toAgentPlace
        (patchRebootCapability ∈ agent.supportedCapabilities)
        (tables.heartbeats agent.id) revision.toPatchRevision selection.summary
        now) selection.payload ∧
      d.outcome = (Server.evaluatePatchInstall
        tables.toWindowTables agent.toAgentPlace
        (patchRebootCapability ∈ agent.supportedCapabilities)
        (tables.heartbeats agent.id) revision.toPatchRevision selection.summary
        now).outcome := by
    unfold PatchPolicies.evaluatePatchInstall at h
    simp only [hpolicy] at h
    cases hunder : evaluateUnder ops padYear tables agent policy.id revision
        payload now with
    | error e => rw [hunder] at h; cases h
    | ok decided =>
        rw [hunder] at h
        obtain rfl := Option.some.inj (Except.ok.inj h)
        obtain ⟨selection, hselect, hdecided⟩ := bind_eq_ok.mp hunder
        obtain rfl := Except.ok.inj hdecided
        exact ⟨selection, hscan ▸ hselect, rfl, rfl⟩
  have hinstructs := instructs_of_allowed (houtcome.symm.trans hallowed)
  have hinstructions := instructionsFromPolicy_iff padYear hinstructs
    selection.payload
  rw [← hpayload] at hinstructions
  have hread : readTargets (sentMembers d.payload) =
      readTargets (sentMembers selection.payload) := by
    rw [hpayload, readTargets_instruct]
  unfold select at hselect
  split at hselect
  · next hasks =>
    rw [if_pos hasks]
    obtain ⟨htargets, hnone⟩ := selectAll_ok hselect
    have hfrom := hinstructions.mpr (hnone _)
    rw [selectsApproved_narrowed (hfrom.readable hbounds)
      (hread.trans htargets)]
    exact ⟨fun h => h.1, fun h => ⟨h, hfrom⟩⟩
  · next hnamed =>
    rw [if_neg hnamed]
    have hblocked : selection.blocked = [] :=
      unblocked_of_allowed (by
        simp only [selectNamed, bind_eq_ok] at hselect
        obtain ⟨kbs, -, ids, -, kbVerdicts, -, idVerdicts, -, hselect⟩ := hselect
        rw [← Except.ok.inj hselect]) (houtcome.symm.trans hallowed)
    have hsame : selection.payload = payload := by
      simp only [selectNamed, bind_eq_ok] at hselect
      obtain ⟨kbs, -, ids, -, kbVerdicts, -, idVerdicts, -, hselect⟩ := hselect
      rw [← Except.ok.inj hselect]
    have hjudged := fun row (hrow : Judged _ _ _ row) =>
      judged_approved hselect hblocked hrow
    rw [hsame] at hread hinstructions
    constructor
    · rintro ⟨hinstalls, hfrom⟩
      exact ⟨(selectsApproved_named (hfrom.readable hbounds) hread hjudged).mp
        hinstalls, hinstructions.mp hfrom⟩
    · rintro ⟨hslips, hbrings⟩
      have hfrom := hinstructions.mpr hbrings
      exact ⟨(selectsApproved_named (hfrom.readable hbounds) hread hjudged).mpr
        hslips, hfrom⟩

end Approval

/-! ## Two updates of one KB number -/

/-- Approves security updates and nothing else, on agents of one site. -/
def securityOnly : PolicyRevision where
  requireMaintenanceWindow := false
  rebootPolicy := .never
  rebootDelaySeconds := 300
  rebootRequiresNoUser := true
  maxInstallAttempts := 2
  policyID := "policy-1"
  version := 1
  rules := [{ key := "security", action := .approve,
              match_ := { classifications := some ["Security Updates"] } }]
  defaultAction := .deny

def securityPolicy : PatchApprovalPolicy where
  id := "policy-1"
  scope := .site
  scopeID := some "site-1"
  enabled := true
  createdAt := 0

/-- A driver and a security update that came with the same KB number. -/
def twoOfOneKB : List EndpointUpdate :=
  [{ row := {
       kbID := some "KB5034123"
       updateID := some "11111111-1111-1111-1111-111111111111"
       classification := some "Drivers" }
     applicable := ⟨"11111111-1111-1111-1111-111111111111", ["5034123"]⟩ },
   { row := {
       kbID := some "KB5034123"
       updateID := some "22222222-2222-2222-2222-222222222222"
       classification := some "Security Updates" }
     applicable := ⟨"22222222-2222-2222-2222-222222222222", ["5034123"]⟩ }]

def patchedAgent : ManagedAgent where
  id := "agent-1"
  siteID := "site-1"
  trustState := .active
  commandEnvelopeVersions := ["command-v3", "command-v2"]
  supportedCapabilities := [patchRebootCapability]

def securityTables (updates : List EndpointUpdate) : PatchTables where
  zones _ := none
  directory := ⟨fun _ => some "site-1", fun _ => some "client-1"⟩
  windows := []
  policies := [securityPolicy]
  revisions := [securityOnly]
  missing _ := updates.map (·.row)
  heartbeats _ := none

/-- The payload `{"kb_ids": ["KB5034123"]}`. -/
def oneKB : PyDict := ⟨[(py "kb_ids", .arr [.str (py "KB5034123")])], by simp⟩

def upperASCII (s : String) : String := String.ofList (s.toList.map Char.toUpper)

def lowerASCII (s : String) : String := String.ofList (s.toList.map Char.toLower)

/-- `-contains` on ASCII texts. -/
def sameIgnoringCase (a b : String) : Bool :=
  decide (a.toList.map Char.toLower = b.toList.map Char.toLower)

/-- Whether the gate allows the payload, and the agent then selects each of
the updates. -/
def gateThenSelect (updates : List EndpointUpdate) : Option (Bool × List Bool) :=
  match PatchPolicies.evaluatePatchInstall asciiOps true (securityTables updates)
      patchedAgent oneKB 0 with
  | .ok (some d) => some (decide (d.outcome = .allowed),
      updates.map fun u => selects upperASCII lowerASCII sameIgnoringCase
        (sentMembers d.payload) u.applicable)
  | _ => none

theorem gateThenSelect_twoOfOneKB :
    gateThenSelect twoOfOneKB = some (true, [true, true]) := by
  decide +kernel

/-- The gate looks up the security update, the last with the KB number, and
allows; the agent selects the driver too. -/
theorem shared_kb_installs_denied :
    ∃ d, PatchPolicies.evaluatePatchInstall asciiOps true
        (securityTables twoOfOneKB) patchedAgent oneKB 0 = .ok (some d) ∧
      d.outcome = .allowed ∧
      ¬ SelectsApproved asciiOps upperASCII lowerASCII sameIgnoringCase
        securityOnly 0 twoOfOneKB d.payload := by
  have hrun := gateThenSelect_twoOfOneKB
  unfold gateThenSelect at hrun
  split at hrun
  · next d hd =>
    obtain ⟨hallowed, hinstalls⟩ := Prod.mk.inj (Option.some.inj hrun)
    refine ⟨d, hd, of_decide_eq_true hallowed, fun happroved => ?_⟩
    have hdriver := happroved _ List.mem_cons_self (List.cons.inj hinstalls).1
    exact absurd hdriver (by decide +kernel)
  · cases hrun

theorem gateThenSelect_single :
    gateThenSelect twoOfOneKB.tail = some (true, [true]) := by decide +kernel

/-- With the security update alone the gate allows as well. -/
theorem patchApproval_iff_single :
    ∃ d, PatchPolicies.evaluatePatchInstall asciiOps true
        (securityTables twoOfOneKB.tail) patchedAgent oneKB 0 = .ok (some d) ∧
      ((SelectsApproved asciiOps upperASCII lowerASCII sameIgnoringCase
          securityOnly 0 twoOfOneKB.tail d.payload ∧
        InstructionsFromPolicy true securityOnly
          (patchRebootCapability ∈ patchedAgent.supportedCapabilities)
          d.payload) ↔
        if asksForAll oneKB = true then
          NoneShared asciiOps upperASCII lowerASCII sameIgnoringCase
            securityOnly 0 twoOfOneKB.tail
        else
          NoneSlips asciiOps upperASCII lowerASCII sameIgnoringCase
            securityOnly 0 twoOfOneKB.tail oneKB ∧
          BringsNoInstructions securityOnly
            (patchRebootCapability ∈ patchedAgent.supportedCapabilities)
            oneKB) := by
  have hrun := gateThenSelect_single
  unfold gateThenSelect at hrun
  split at hrun
  · next d hd =>
    obtain ⟨hallowed, -⟩ := Prod.mk.inj (Option.some.inj hrun)
    have hpolicy : resolveEffectivePatchPolicy (securityTables twoOfOneKB.tail)
        patchedAgent.toAgentPlace = some (securityPolicy, securityOnly) := by
      decide +kernel
    have hbounds : WithinSchema securityOnly := by
      simp [WithinSchema, securityOnly]
    exact ⟨d, hd, patchApproval_iff hpolicy hbounds rfl hd
      (of_decide_eq_true hallowed)⟩
  · cases hrun

end NodeLink.Proofs
