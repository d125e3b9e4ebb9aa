import NodeLink.Agent.SelfUpdate
import Mathlib.Data.List.Chain
import Mathlib.Data.Prod.Lex

/-!
# When updates only move forward

`Compare` reads a prerelease identifier as a number when it can, and answers
"greater" for two identifiers that are the same number spelled in two ways,
whichever stands first. That is its only fault: lower is transitive on all
versions, and greater is the converse of lower wherever no two versions are
such twins. So a set of versions is safe from rollback exactly when it holds
no twins.
-/

namespace NodeLink.Proofs

open Lib Agent Agent.SelfUpdate

/-! ## Identifiers -/

/-- Where an identifier stands: numbers first, in their order, then the
others in the order of their bytes. -/
def rank (s : List Char) : Int ⊕ₗ List Char :=
  match atoi s with
  | some n => Sum.inlₗ n
  | none => Sum.inrₗ s

theorem compareIdentifiers_of_ne {l r : List Char}
    {left right : List (List Char)} (h : l ≠ r) :
    compareIdentifiers (l :: left) (r :: right) =
      if rank l < rank r then .lt else .gt := by
  rw [compareIdentifiers, if_neg h, rank, rank]
  cases atoi l <;> cases atoi r <;> simp

theorem compareIdentifiers_same {l : List Char} {left right : List (List Char)} :
    compareIdentifiers (l :: left) (l :: right) =
      compareIdentifiers left right := by
  rw [compareIdentifiers, if_pos rfl]

theorem rank_eq_iff {l r : List Char} (h : l ≠ r) :
    rank l = rank r ↔ SameNumber l r := by
  rw [rank, rank, SameNumber]
  cases hl : atoi l <;> cases hr : atoi r <;> simp [h, eq_comm]

/-- The first place where two lists differ decides, and there the ranks
do. -/
theorem compareIdentifiers_lt_cons {l r : List Char}
    {left right : List (List Char)} :
    compareIdentifiers (l :: left) (r :: right) = .lt ↔
      rank l < rank r ∨ l = r ∧ compareIdentifiers left right = .lt := by
  by_cases h : l = r
  · subst h
    simp [compareIdentifiers_same]
  · simp [compareIdentifiers_of_ne h, h]

theorem compareIdentifiers_eq_iff {left right : List (List Char)} :
    compareIdentifiers left right = .eq ↔ left = right := by
  induction left generalizing right with
  | nil => cases right <;> simp [compareIdentifiers]
  | cons l left ih =>
      cases right with
      | nil => simp [compareIdentifiers]
      | cons r right =>
          by_cases h : l = r
          · subst h
            simp [compareIdentifiers_same, ih]
          · rw [compareIdentifiers_of_ne h]
            split <;> simp [h]

theorem compareIdentifiers_lt_trans {x y z : List (List Char)}
    (hxy : compareIdentifiers x y = .lt) (hyz : compareIdentifiers y z = .lt) :
    compareIdentifiers x z = .lt := by
  induction x generalizing y z with
  | nil =>
      cases z with
      | nil => cases y <;> simp [compareIdentifiers] at hxy hyz
      | cons c z => rfl
  | cons a x ih =>
      cases y with
      | nil => simp [compareIdentifiers] at hxy
      | cons b y =>
          cases z with
          | nil => simp [compareIdentifiers] at hyz
          | cons c z =>
              rw [compareIdentifiers_lt_cons] at hxy hyz ⊢
              obtain hab | ⟨rfl, hxy⟩ := hxy
              · obtain hbc | ⟨rfl, -⟩ := hyz
                · exact .inl (hab.trans hbc)
                · exact .inl hab
              · obtain hbc | ⟨rfl, hyz⟩ := hyz
                · exact .inl hbc
                · exact .inr ⟨rfl, ih hxy hyz⟩

/-- Greater is the converse of lower, and holds of twins both ways. -/
theorem compareIdentifiers_gt_iff {left right : List (List Char)} :
    compareIdentifiers left right = .gt ↔
      compareIdentifiers right left = .lt ∨ TwinIdentifiers left right := by
  induction left generalizing right with
  | nil => cases right <;> simp [compareIdentifiers, TwinIdentifiers]
  | cons l left ih =>
      cases right with
      | nil => simp [compareIdentifiers, TwinIdentifiers]
      | cons r right =>
          by_cases h : l = r
          · subst h
            simp [compareIdentifiers_same, TwinIdentifiers, ih]
          · rw [compareIdentifiers_of_ne h, compareIdentifiers_of_ne (Ne.symm h),
              TwinIdentifiers, if_neg h, ← rank_eq_iff h]
            obtain hlt | heq | hgt := lt_trichotomy (rank l) (rank r)
            · simp [hlt, hlt.ne, hlt.not_gt]
            · simp [heq]
            · simp [hgt, hgt.not_gt]

theorem twinIdentifiers_symm {left right : List (List Char)}
    (h : TwinIdentifiers left right) : TwinIdentifiers right left := by
  induction left generalizing right with
  | nil => exact h.elim
  | cons l left ih =>
      cases right with
      | nil => exact h.elim
      | cons r right =>
          rw [TwinIdentifiers] at h ⊢
          by_cases he : l = r
          · rw [if_pos he] at h
            rw [if_pos he.symm]
            exact ih h
          · rw [if_neg he] at h
            rw [if_neg (Ne.symm he)]
            obtain ⟨hne, n, hl, hr⟩ := h
            exact ⟨hne.symm, n, hr, hl⟩

/-! ## Prereleases -/

/-- The end of `Compare`, on the prereleases alone. -/
def prereleaseOrder (p q : List Char) : Ordering :=
  if p = q then .eq
  else if p = [] then .gt
  else if q = [] then .lt
  else comparePrerelease p q

theorem splitOn_injective {c : Char} {s t : List Char}
    (h : s.splitOn c = t.splitOn c) : s = t := by
  have hs : [c].intercalate (s.splitOn c) = s := List.intercalate_splitOn c
  rw [← hs, h, List.intercalate_splitOn]

/-- No number is spelled by nothing, so a release has no twin. -/
theorem not_twin_nil {q : List (List Char)} : ¬ TwinIdentifiers [[]] q := by
  intro h
  cases q with
  | nil => exact h
  | cons r q =>
      rw [TwinIdentifiers] at h
      split at h
      · cases q <;> exact h
      · obtain ⟨-, n, hn, -⟩ := h
        simp [atoi] at hn

theorem prereleaseOrder_eq_iff {p q : List Char} :
    prereleaseOrder p q = .eq ↔ p = q := by
  rw [prereleaseOrder]
  split
  · next h => simp [h]
  · next h =>
    split
    · simp [h]
    · split
      · simp [h]
      · rw [comparePrerelease, compareIdentifiers_eq_iff]
        exact ⟨splitOn_injective, fun e => by rw [e]⟩

theorem comparePrerelease_self {p : List Char} : comparePrerelease p p = .eq :=
  compareIdentifiers_eq_iff.mpr rfl

theorem prereleaseOrder_lt_iff {p q : List Char} :
    prereleaseOrder p q = .lt ↔
      p ≠ [] ∧ (q = [] ∨ comparePrerelease p q = .lt) := by
  by_cases h : p = q
  · subst h
    simp +contextual [prereleaseOrder, comparePrerelease_self]
  · rw [prereleaseOrder, if_neg h]
    by_cases hp : p = []
    · simp [hp]
    · by_cases hq : q = [] <;> simp [hp, hq]

theorem prereleaseOrder_lt_trans {p q r : List Char}
    (hpq : prereleaseOrder p q = .lt) (hqr : prereleaseOrder q r = .lt) :
    prereleaseOrder p r = .lt := by
  rw [prereleaseOrder_lt_iff] at hpq hqr ⊢
  obtain ⟨hp, hpq⟩ := hpq
  obtain ⟨hq, hqr⟩ := hqr
  refine ⟨hp, hqr.imp_right fun hqr => ?_⟩
  exact compareIdentifiers_lt_trans (hpq.resolve_left hq) hqr

theorem prereleaseOrder_gt_iff {p q : List Char} :
    prereleaseOrder p q = .gt ↔ prereleaseOrder q p = .lt ∨
      TwinIdentifiers (p.splitOn '.') (q.splitOn '.') := by
  by_cases h : p = q
  · subst h
    have htwin : compareIdentifiers (p.splitOn '.') (p.splitOn '.') = .gt ↔
        compareIdentifiers (p.splitOn '.') (p.splitOn '.') = .lt ∨
          TwinIdentifiers (p.splitOn '.') (p.splitOn '.') :=
      compareIdentifiers_gt_iff
    rw [compareIdentifiers_eq_iff.mpr rfl] at htwin
    simpa [prereleaseOrder] using htwin
  · rw [prereleaseOrder_lt_iff, prereleaseOrder, if_neg h]
    by_cases hp : p = []
    · subst hp
      simp [Ne.symm h]
    · by_cases hq : q = []
      · subst hq
        have htwin : ¬ TwinIdentifiers (p.splitOn '.') [[]] :=
          fun t => not_twin_nil (twinIdentifiers_symm t)
        simpa [hp] using htwin
      · rw [if_neg hp, if_neg hq, comparePrerelease, compareIdentifiers_gt_iff]
        simp [hp, hq, comparePrerelease]

/-! ## Versions -/

/-- The three numbers, in the order that decides. -/
def numbers (v : Version) : ℕ ×ₗ ℕ ×ₗ ℕ :=
  toLex (v.major, toLex (v.minor, v.patch))

theorem numbers_eq_iff {a b : Version} : numbers a = numbers b ↔
    a.major = b.major ∧ a.minor = b.minor ∧ a.patch = b.patch := by
  simp [numbers]

theorem compare_eq_ite {a b : Version} :
    a.compare b = if numbers a = numbers b then
      prereleaseOrder a.prerelease b.prerelease
    else if numbers a < numbers b then .lt else .gt := by
  have hlt : numbers a < numbers b ↔ a.major < b.major ∨ a.major = b.major ∧
      (a.minor < b.minor ∨ a.minor = b.minor ∧ a.patch < b.patch) := by
    simp [numbers, Prod.Lex.toLex_lt_toLex]
  simp only [numbers_eq_iff, hlt]
  rw [Version.compare, prereleaseOrder]
  by_cases hmajor : a.major = b.major
  · by_cases hminor : a.minor = b.minor
    · by_cases hpatch : a.patch = b.patch
      · simp [hmajor, hminor, hpatch]
      · simp [hmajor, hminor, hpatch]
    · simp [hmajor, hminor]
  · simp [hmajor]

theorem compare_eq_iff {a b : Version} : a.compare b = .eq ↔ a.Same b := by
  rw [compare_eq_ite]
  constructor
  · intro h
    split at h
    · next hn =>
      obtain ⟨hmajor, hminor, hpatch⟩ := numbers_eq_iff.mp hn
      exact ⟨hmajor, hminor, hpatch, prereleaseOrder_eq_iff.mp h⟩
    · split at h <;> cases h
  · intro ⟨hmajor, hminor, hpatch, hpre⟩
    rw [if_pos (numbers_eq_iff.mpr ⟨hmajor, hminor, hpatch⟩)]
    exact prereleaseOrder_eq_iff.mpr hpre

theorem compare_lt_iff {a b : Version} : a.compare b = .lt ↔
    numbers a < numbers b ∨ numbers a = numbers b ∧
      prereleaseOrder a.prerelease b.prerelease = .lt := by
  rw [compare_eq_ite]
  split
  · next h => simp [h]
  · next h => simp [h]

/-- Lower is transitive on all versions. -/
theorem compare_lt_trans {a b c : Version} (hab : a.compare b = .lt)
    (hbc : b.compare c = .lt) : a.compare c = .lt := by
  rw [compare_lt_iff] at hab hbc ⊢
  obtain hab | ⟨eab, hab⟩ := hab
  · obtain hbc | ⟨ebc, -⟩ := hbc
    · exact .inl (hab.trans hbc)
    · exact .inl (ebc ▸ hab)
  · obtain hbc | ⟨ebc, hbc⟩ := hbc
    · exact .inl (eab ▸ hbc)
    · exact .inr ⟨eab.trans ebc, prereleaseOrder_lt_trans hab hbc⟩

/-- Greater is the converse of lower, and holds of twins both ways. -/
theorem compare_gt_iff {a b : Version} :
    a.compare b = .gt ↔ b.compare a = .lt ∨ Twins a b := by
  have htwins : Twins a b ↔ numbers a = numbers b ∧
      TwinIdentifiers (a.prerelease.splitOn '.') (b.prerelease.splitOn '.') :=
    ⟨fun t => ⟨numbers_eq_iff.mpr ⟨t.major, t.minor, t.patch⟩, t.identifiers⟩,
      fun ⟨hn, ht⟩ => by
        obtain ⟨hmajor, hminor, hpatch⟩ := numbers_eq_iff.mp hn
        exact ⟨hmajor, hminor, hpatch, ht⟩⟩
  rw [compare_lt_iff, htwins, compare_eq_ite]
  obtain hlt | heq | hgt := lt_trichotomy (numbers a) (numbers b)
  · simp [hlt, hlt.ne, hlt.ne', hlt.not_gt]
  · simp [heq, prereleaseOrder_gt_iff]
  · simp [hgt, hgt.ne', hgt.not_gt]

theorem twins_symm {a b : Version} (h : Twins a b) : Twins b a :=
  ⟨h.major.symm, h.minor.symm, h.patch.symm, twinIdentifiers_symm h.identifiers⟩

/-! ## What an update may go to -/

section Updates

variable (onWindows : Bool) (sameName : String → String)

theorem antiRollback_eq_none_iff {target current floor : Version}
    {res : UpdateResult} : antiRollback target current floor res = none ↔
      target.compare current = .gt ∧ target.compare floor ≠ .lt := by
  rw [antiRollback]
  cases target.compare current <;> simp

theorem normalized_eq_some {o opts : UpdateOptions}
    (h : o.normalized = some opts) :
    opts.currentVersion = o.currentVersion := by
  rw [UpdateOptions.normalized] at h
  split at h
  · cases h
  · cases h
    rfl

theorem antiRollback_status {target current floor : Version}
    {res out : UpdateResult} (h : antiRollback target current floor res = some out) :
    out.status ≠ .restartPending := by
  rw [antiRollback] at h
  split at h
  · cases h
    simp [UpdateResult.succeed]
  · split at h
    · cases h
      simp [UpdateResult.fail]
    · split at h
      · cases h
        simp [UpdateResult.fail]
      · cases h

theorem refuseUpdate_status {opts : UpdateOptions} {p : UpdatePayload}
    {out : UpdateResult} (h : refuseUpdate opts p = some out) :
    out.status ≠ .restartPending := by
  rw [refuseUpdate] at h
  split at h
  · cases h
    simp [UpdateResult.fail]
  · simp only [] at h
    split at h
    · cases h
      simp [UpdateResult.fail]
    · split at h
      · cases h
        simp [UpdateResult.fail]
      · split at h
        · exact antiRollback_status h
        · cases h

/-- The payloads `validate` lets through. -/
structure ValidPayload (p : UpdatePayload) : Prop where
  releaseID : idPattern p.releaseID = true
  version : (parseVersion p.version).isSome = true
  minSupportedVersion : (parseVersion p.minSupportedVersion).isSome = true
  channel : p.channel ∈ ["stable", "beta", "canary"]
  platform : platformPattern p.platform = true
  artifactURL : validArtifactURL p.artifactURL = true
  artifactSHA256 : sha256Pattern p.artifactSHA256 = true
  sizeBytes : 0 < p.sizeBytes ∧ p.sizeBytes ≤ maxArtifactBytes
  signer : p.signerThumbprint = "" ∨
    thumbprintPattern p.signerThumbprint = true
  healthTimeout : p.healthTimeoutSeconds = 0 ∨
    (minHealthTimeoutSeconds ≤ p.healthTimeoutSeconds ∧
      p.healthTimeoutSeconds ≤ maxHealthTimeoutSeconds)

theorem validate_eq_ok_iff {p : UpdatePayload} :
    validate p = .ok () ↔ ValidPayload p := by
  simp only [validate, require_bind_eq_ok, require_eq_ok]
  constructor
  · rintro ⟨hid, hv, hm, hc, hp, hu, hd, hs, ht, hh⟩
    exact ⟨hid, hv, hm, hc, hp, hu, hd, hs, ht, hh⟩
  · rintro ⟨hid, hv, hm, hc, hp, hu, hd, hs, ht, hh⟩
    exact ⟨hid, hv, hm, hc, hp, hu, hd, hs, ht, hh⟩

/-- What is not refused is greater than the running version. -/
theorem compare_of_refuseUpdate {opts : UpdateOptions} {p : UpdatePayload}
    {running target : AgentVersion} (hopts : opts.currentVersion = running.val.raw)
    (hp : p.version = target.val.raw) (h : refuseUpdate opts p = none) :
    target.val.compare running.val = .gt := by
  rw [refuseUpdate] at h
  split at h
  · cases h
  · next hvalid =>
    obtain ⟨floor, hfloor⟩ :=
      Option.isSome_iff_exists.mp
        (validate_eq_ok_iff.mp hvalid).minSupportedVersion
    simp only [hopts, hp, running.property, target.property, hfloor] at h
    split at h
    · cases h
    · split at h
      · cases h
      · exact (antiRollback_eq_none_iff.mp h).1

theorem compare_of_accepts {running target : AgentVersion}
    (h : Accepts onWindows sameName running target) :
    target.val.compare running.val = .gt := by
  obtain ⟨opts, commandID, p, res, hopts, hp, hrun, hres⟩ := h
  rw [execute] at hrun
  split at hrun
  · obtain ⟨rfl, -⟩ := hrun
    cases hres
  · next o ho =>
    simp only [executeUpdate] at hrun
    split at hrun
    · next out hout =>
      obtain ⟨rfl, -⟩ := hrun
      exact absurd hres (refuseUpdate_status hout)
    · next hnone =>
      exact compare_of_refuseUpdate ((normalized_eq_some ho).trans hopts) hp hnone

def releaseDigest : String :=
  "ba7816bf8f01cfea414140de5dae2223b00361a396177a9cb410ff61f20015ad"

/-- A release of the given version, everything else as a valid one has it. -/
def releaseOf (version : String) : UpdatePayload where
  releaseID := "release-1"
  version := version
  channel := "stable"
  platform := "linux/amd64"
  artifactURL := "https://updates.example/agent"
  artifactSHA256 := releaseDigest
  sizeBytes := 3
  minSupportedVersion := version

def optionsOf (version : String) : UpdateOptions :=
  ⟨version, "/opt/rmm-agent/rmm-agent", "linux/amd64", "stable"⟩

theorem normalized_optionsOf {running : AgentVersion} :
    (optionsOf running.val.raw).normalized = some (optionsOf running.val.raw) := by
  simp [UpdateOptions.normalized, optionsOf, running.property]

theorem validate_releaseOf {target : AgentVersion} :
    validate (releaseOf target.val.raw) = .ok () := by
  have hparse : (parseVersion target.val.raw).isSome = true := by
    rw [target.property]
    rfl
  exact validate_eq_ok_iff.mpr {
    releaseID := (by decide : idPattern "release-1" = true)
    version := hparse
    minSupportedVersion := hparse
    channel := (by decide : "stable" ∈ ["stable", "beta", "canary"])
    platform := (by decide : platformPattern "linux/amd64" = true)
    artifactURL := (by decide +kernel :
      validArtifactURL "https://updates.example/agent" = true)
    artifactSHA256 := (by decide : sha256Pattern releaseDigest = true)
    sizeBytes := (by decide : (0 : Int) < 3 ∧ (3 : Int) ≤ maxArtifactBytes)
    signer := .inl rfl
    healthTimeout := .inl rfl }

theorem refuseUpdate_releaseOf {running target : AgentVersion}
    (h : target.val.compare running.val = .gt) :
    refuseUpdate (optionsOf running.val.raw) (releaseOf target.val.raw) =
      none := by
  rw [refuseUpdate, validate_releaseOf]
  simp only [releaseOf, optionsOf, running.property, target.property]
  rw [if_neg (by simp), if_neg (by simp), antiRollback_eq_none_iff]
  refine ⟨h, ?_⟩
  rw [compare_eq_iff.mpr ⟨rfl, rfl, rfl, rfl⟩]
  simp

/-- Some answers take the program to a requested restart. -/
def MayRestart (x : UpdateProg UpdateResult) : Prop :=
  ∃ res, RunsTo anyAnswers x () res () ∧ res.status = .restartPending

theorem mayRestart_bind {α : Type} {x : UpdateProg α}
    {f : α → UpdateProg UpdateResult} (a : α) (hx : RunsTo anyAnswers x () a ())
    (hf : MayRestart (f a)) : MayRestart (x >>= f) := by
  obtain ⟨res, hrun, hres⟩ := hf
  exact ⟨res, runsTo_bind hx hrun, hres⟩

theorem mayRestart_act {o : UpdateOp} {f : o.Ans → UpdateProg UpdateResult}
    (a : o.Ans) (hf : MayRestart (f a)) : MayRestart (act o >>= f) :=
  mayRestart_bind a ⟨a, (), trivial, rfl, rfl⟩ hf

theorem atomicReplace_runs {src dest : BuildFile} :
    RunsTo anyAnswers (atomicReplace onWindows src dest) () true () := by
  have rename : ∀ src dest,
      RunsTo anyAnswers (renameFile src dest) () .done () :=
    fun src dest => ⟨FileEnd.done, (), trivial, rfl, rfl⟩
  refine runsTo_bind (a := .done) ⟨FileEnd.done, (), trivial, rfl, rfl⟩ ?_
  rw [if_neg (by simp), replaceRunningBinary]
  cases onWindows with
  | false => exact runsTo_bind (rename src dest) ⟨rfl, rfl⟩
  | true =>
      refine runsTo_bind (a := (0 : Int)) ⟨(0 : Int), (), trivial, rfl, rfl⟩ ?_
      refine runsTo_bind (rename dest _) ?_
      rw [if_neg (by simp)]
      exact runsTo_bind (rename src dest) ⟨rfl, rfl⟩

theorem swapBuild_mayRestart {stagedPath : BuildFile} {journal : UpdateJournal}
    {res : UpdateResult} :
    MayRestart (swapBuild onWindows stagedPath journal res) := by
  refine mayRestart_bind true (atomicReplace_runs onWindows) ?_
  refine mayRestart_act true ?_
  refine mayRestart_act true ?_
  exact ⟨_, ⟨rfl, rfl⟩, rfl⟩

theorem stageAttempt_mayRestart {opts : UpdateOptions} {commandID : String}
    {p : UpdatePayload} {stagedPath : BuildFile} {res : UpdateResult} :
    MayRestart
      (stageAttempt onWindows sameName opts commandID p stagedPath res) := by
  refine mayRestart_act (0 : Int) ?_
  refine mayRestart_act (0 : Int) ?_
  refine mayRestart_act true ?_
  refine mayRestart_act (some releaseDigest) ?_
  refine mayRestart_act true ?_
  exact swapBuild_mayRestart onWindows

theorem stageArtifact_mayRestart {opts : UpdateOptions} {commandID : String}
    {p : UpdatePayload} {res : UpdateResult} (hsigner : p.signerThumbprint = "") :
    MayRestart (stageArtifact onWindows sameName opts commandID p res) := by
  refine mayRestart_act (DownloadEnd.done (.staged 0) p.sizeBytes
    p.artifactSHA256) ?_
  simp only [ne_eq, not_true_eq_false, if_false]
  refine mayRestart_bind true ?_ (stageAttempt_mayRestart onWindows sameName)
  rw [checkSigner, if_pos hsigner]
  exact ⟨rfl, rfl⟩

/-- A greater version is accepted, if the world lets the attempt through. -/
theorem accepts_of_compare {running target : AgentVersion}
    (h : target.val.compare running.val = .gt) :
    Accepts onWindows sameName running target := by
  have hrun : MayRestart (execute onWindows sameName
      (optionsOf running.val.raw)
      (.selfUpdate "command-1" (some (releaseOf target.val.raw)))) := by
    rw [execute, normalized_optionsOf]
    simp only [executeUpdate, refuseUpdate_releaseOf h]
    refine mayRestart_act (Loaded.absent : Loaded UpdateJournal) ?_
    refine mayRestart_act true ?_
    exact stageArtifact_mayRestart onWindows sameName rfl
  obtain ⟨res, hrun, hres⟩ := hrun
  exact ⟨optionsOf running.val.raw, "command-1", releaseOf target.val.raw, res,
    rfl, rfl, hrun, hres⟩

theorem accepts_iff {running target : AgentVersion} :
    Accepts onWindows sameName running target ↔
      target.val.compare running.val = .gt :=
  ⟨compare_of_accepts onWindows sameName,
    accepts_of_compare onWindows sameName⟩

end Updates

/-! ## Chains -/

/-- No version comes back in a chain of accepted updates within `S`. -/
def NeverReturns (onWindows : Bool) (sameName : String → String)
    (S : Set AgentVersion) : Prop :=
  ∀ chain : List AgentVersion, (∀ v ∈ chain, v ∈ S) →
    chain.IsChain (Accepts onWindows sameName) →
    chain.Pairwise fun a b => ¬ a.val.Same b.val

/-- `Compare` is a strict total order on `S`. -/
structure StrictTotalOn (S : Set AgentVersion) : Prop where
  irrefl : ∀ a ∈ S, a.val.compare a.val = .eq
  antisymm : ∀ a ∈ S, ∀ b ∈ S,
    a.val.compare b.val = .gt ↔ b.val.compare a.val = .lt
  trans : ∀ a ∈ S, ∀ b ∈ S, ∀ c ∈ S, a.val.compare b.val = .lt →
    b.val.compare c.val = .lt → a.val.compare c.val = .lt
  total : ∀ a ∈ S, ∀ b ∈ S, a.val.compare b.val = .eq → a.val.Same b.val

def NoTwins (S : Set AgentVersion) : Prop :=
  ∀ a ∈ S, ∀ b ∈ S, ¬ Twins a.val b.val

/-- The order of the versions the agent accepts. -/
def Precedes (a b : AgentVersion) : Prop := a.val.compare b.val = .lt

instance : Trans Precedes Precedes Precedes := ⟨compare_lt_trans⟩

theorem precedes_of_accepts {onWindows : Bool} {sameName : String → String}
    {S : Set AgentVersion} (hS : NoTwins S) {a b : AgentVersion} (ha : a ∈ S)
    (hb : b ∈ S) (h : Accepts onWindows sameName a b) : Precedes a b :=
  (compare_gt_iff.mp ((accepts_iff onWindows sameName).mp h)).resolve_right
    (hS b hb a ha)

theorem Precedes.not_same {a b : AgentVersion} (h : Precedes a b) :
    ¬ a.val.Same b.val := by
  intro hs
  rw [Precedes, compare_eq_iff.mpr hs] at h
  cases h

theorem neverReturns_of_noTwins {onWindows : Bool} {sameName : String → String}
    {S : Set AgentVersion} (hS : NoTwins S) :
    NeverReturns onWindows sameName S := by
  intro chain hmem hchain
  have hlt : chain.IsChain Precedes :=
    hchain.imp_of_mem_imp fun a b ha hb h =>
      precedes_of_accepts hS (hmem a ha) (hmem b hb) h
  exact hlt.pairwise.imp fun h => h.not_same

/-- Twins are accepted in both directions. -/
theorem accepts_of_twins {onWindows : Bool} {sameName : String → String}
    {a b : AgentVersion} (h : Twins a.val b.val) :
    [a, b, a].IsChain (Accepts onWindows sameName) := by
  have hab : Accepts onWindows sameName a b :=
    (accepts_iff onWindows sameName).mpr (compare_gt_iff.mpr (.inr (twins_symm h)))
  have hba : Accepts onWindows sameName b a :=
    (accepts_iff onWindows sameName).mpr (compare_gt_iff.mpr (.inr h))
  simp [hab, hba]

theorem strictTotalOn_iff {S : Set AgentVersion} :
    StrictTotalOn S ↔ NoTwins S := by
  constructor
  · intro hS a ha b hb h
    have hab := (hS.antisymm a ha b hb).mp (compare_gt_iff.mpr (.inr h))
    rw [compare_gt_iff.mpr (.inr (twins_symm h))] at hab
    cases hab
  · intro hS
    refine ⟨fun a _ => compare_eq_iff.mpr ⟨rfl, rfl, rfl, rfl⟩, ?_,
      fun _ _ _ _ _ _ => compare_lt_trans, fun _ _ _ _ => compare_eq_iff.mp⟩
    intro a ha b hb
    rw [compare_gt_iff]
    exact or_iff_left (hS a ha b hb)

/-- Updates within a set of versions never return to one they left exactly
when the set holds no twins, and exactly then `Compare` is a strict total
order on it. -/
theorem updates_neverReturn_iff (onWindows : Bool) (sameName : String → String)
    (S : Set AgentVersion) :
    (NeverReturns onWindows sameName S ↔ NoTwins S) ∧
      (StrictTotalOn S ↔ NoTwins S) := by
  refine ⟨⟨?_, neverReturns_of_noTwins⟩, strictTotalOn_iff⟩
  intro hS a ha b hb h
  have hpair := hS [a, b, a] (by simp [ha, hb]) (accepts_of_twins h)
  simp only [List.pairwise_cons, List.mem_cons, forall_eq_or_imp] at hpair
  exact hpair.1.2.1 ⟨rfl, rfl, rfl, rfl⟩

/-- One build as `1.0.0-1`, and under a version that spells its number
otherwise. -/
def buildOne : AgentVersion := ⟨⟨1, 0, 0, ['1'], "1.0.0-1"⟩, by decide +kernel⟩

def buildZeroOne : AgentVersion :=
  ⟨⟨1, 0, 0, ['0', '1'], "1.0.0-01"⟩, by decide +kernel⟩

/-- The agent goes from 1.0.0-1 to 1.0.0-01 and back. -/
theorem update_returns :
    [buildOne, buildZeroOne, buildOne].IsChain (Accepts false id) ∧
      ¬ NeverReturns false id Set.univ ∧ ¬ StrictTotalOn Set.univ := by
  have htwins : Twins buildOne.val buildZeroOne.val := by
    refine ⟨rfl, rfl, rfl, ?_⟩
    have hsplit : ∀ s ∈ [['1'], ['0', '1']], s.splitOn '.' = [s] := by
      decide
    rw [hsplit _ (by simp [buildOne]), hsplit _ (by simp [buildZeroOne])]
    exact ⟨by decide, 1, by decide, by decide⟩
  have hsome : ¬ NoTwins Set.univ := fun h => h _ trivial _ trivial htwins
  refine ⟨accepts_of_twins htwins, fun h => ?_, fun h => ?_⟩
  · have hpair := h _ (fun _ _ => trivial) (accepts_of_twins htwins)
    simp only [List.pairwise_cons, List.mem_cons, forall_eq_or_imp] at hpair
    exact hpair.1.2.1 ⟨rfl, rfl, rfl, rfl⟩
  · exact hsome (strictTotalOn_iff.mp h)

end NodeLink.Proofs
