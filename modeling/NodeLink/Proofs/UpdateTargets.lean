import Mathlib
import NodeLink.Proofs.RolloutControl
import NodeLink.Proofs.VersionAgreement

/-!
# Which endpoints a rollout sends what they refuse

The server targets an endpoint by its row, the agent decides by what it is. A
check-in writes the version and the channel to the row, but a channel that has
become the default again is not sent, and the platform stays the one it was
enrolled with. An endpoint that is eligible takes the release when these are
still true and both sides order the versions alike.
-/

namespace NodeLink.Proofs.UpdateTargets

open Lib Server.AgentUpdates VersionAgreement
open Agent (Version isPrereleaseChar)
open Agent.SelfUpdate (UpdateOptions UpdatePayload UpdateResult antiRollback
  refuseUpdate platformPattern idPattern validArtifactURL sha256Pattern
  thumbprintPattern maxArtifactBytes minHealthTimeoutSeconds
  maxHealthTimeoutSeconds isPlatformPart)

/-! ## An endpoint and its row -/

/-- A running agent: the platform it was built for, its version, and the
channel its configuration names, empty for the default. -/
structure Host where
  os : String
  architecture : String
  version : String
  channel : String
  channel_ok : channel ∈ ["", "stable", "beta", "canary"]

/-- `runtime.GOOS + "/" + runtime.GOARCH` -/
def Host.platform (h : Host) : String := h.os ++ "/" ++ h.architecture

/-- `selfUpdateOptions` -/
def Host.options (h : Host) (exePath : String) : UpdateOptions :=
  ⟨h.version, exePath, h.platform, h.channel⟩

/-- What a heartbeat writes to the columns that targeting reads. A channel that
is not sent leaves the column as it is. -/
def checkIn (row : UpdateAgent) (h : Host) : UpdateAgent :=
  { row with
    agentVersion := h.version
    updateChannel :=
      if h.channel = "" then row.updateChannel else some h.channel }

/-- The signed payload of a release, whose other members are valid. -/
structure Carries (r : AgentUpdateRelease) (p : UpdatePayload) : Prop where
  version : p.version = r.version
  channel : p.channel = r.channel
  platform : p.platform = r.platform
  minSupportedVersion : p.minSupportedVersion = r.minSupportedVersion
  releaseID : idPattern p.releaseID = true
  artifactURL : validArtifactURL p.artifactURL = true
  artifactSHA256 : sha256Pattern p.artifactSHA256 = true
  sizeBytes : 0 < p.sizeBytes ∧ p.sizeBytes ≤ maxArtifactBytes
  signer : p.signerThumbprint = "" ∨
    thumbprintPattern p.signerThumbprint = true
  healthTimeout : p.healthTimeoutSeconds = 0 ∨
    (minHealthTimeoutSeconds ≤ p.healthTimeoutSeconds ∧
      p.healthTimeoutSeconds ≤ maxHealthTimeoutSeconds)

/-- The agent does not refuse the payload before it looks at its disk. -/
def Takes (o : UpdateOptions) (p : UpdatePayload) : Prop :=
  ∃ opts, o.normalized = some opts ∧ refuseUpdate opts p = none

/-- The digits of `\d` and the lower case of a text, as far as targeting
depends on them. -/
structure Documented (ops : UpdateOps) : Prop where
  digits : AsciiDigits ops
  lower : ∀ channel ∈ ["stable", "beta", "canary"], ops.lower channel = channel

/-- The row is true of the endpoint, and both sides order the versions of the
release alike. -/
structure Meets (ops : UpdateOps) (row : UpdateAgent) (h : Host)
    (r : AgentUpdateRelease) : Prop where
  platform : agentPlatform ops row = some h.platform
  channel : h.channel = "" → agentChannel ops row = "stable"
  versions : ∃ target current floor,
    Agent.parseVersion r.version = some target ∧
    Agent.parseVersion h.version = some current ∧
    Agent.parseVersion r.minSupportedVersion = some floor ∧
    SignsAlike target current ∧ NotBelow target floor

variable {ops : UpdateOps} {row : UpdateAgent} {h : Host}
  {r : AgentUpdateRelease} {p : UpdatePayload}

/-! ## Eligible endpoints -/

/-- What eligibility says of the row. -/
structure Eligible (ops : UpdateOps) (r : AgentUpdateRelease)
    (a : UpdateAgent) : Prop where
  platform : agentPlatform ops a = some r.platform
  channel : agentChannel ops a = r.channel
  forward : compareVersions ops (strip a.agentVersion) r.version = some .lt
  floor : ∃ o, compareVersions ops r.version r.minSupportedVersion = some o ∧
    o ≠ .lt

theorem versionRefusal_none {current : String}
    (h : versionRefusal ops r current = none) :
    compareVersions ops current r.version = some .lt ∧
      ∃ o, compareVersions ops r.version r.minSupportedVersion = some o ∧
        o ≠ .lt := by
  rw [versionRefusal.eq_def] at h
  split at h
  · exact nomatch h
  · exact nomatch h
  · exact nomatch h
  · next hforward =>
    split at h
    · exact nomatch h
    · exact nomatch h
    · next o hne hfloor => exact ⟨hforward, o, hfloor, hne⟩

theorem eligible_facts {a : UpdateAgent}
    (h : (evaluateEligibility ops r a).eligible = true) : Eligible ops r a := by
  rw [evaluateEligibility.eq_def] at h
  split at h
  · exact nomatch h
  · split at h
    · exact nomatch h
    · split at h
      · exact nomatch h
      · next platform hplatform =>
        split at h
        · exact nomatch h
        · next hsame =>
          split at h
          · exact nomatch h
          · next hchannel =>
            split at h
            · exact nomatch h
            · split at h
              · exact nomatch h
              · next hversions =>
                obtain ⟨hforward, hfloor⟩ := versionRefusal_none hversions
                rw [not_not.mp hsame] at hplatform
                exact ⟨hplatform, not_not.mp hchannel, hforward, hfloor⟩

/-! ## Texts -/

theorem toNat_of_isPrereleaseChar {c : Char} (h : isPrereleaseChar c = true) :
    45 ≤ c.toNat ∧ c.toNat ≤ 122 := by
  show 45 ≤ c.val.toNat ∧ c.val.toNat ≤ 122
  simp only [isPrereleaseChar, Char.isAlphanum, Char.isAlpha, Char.isUpper,
    Char.isLower, Char.isDigit, Bool.or_eq_true, Bool.and_eq_true,
    decide_eq_true_eq, ge_iff_le, UInt32.le_iff_toNat_le, beq_iff_eq] at h
  rcases h with (((h | h) | h) | rfl) | rfl
  · exact ⟨le_trans (by decide) h.1, le_trans h.2 (by decide)⟩
  · exact ⟨le_trans (by decide) h.1, le_trans h.2 (by decide)⟩
  · exact ⟨le_trans (by decide) h.1, le_trans h.2 (by decide)⟩
  · decide
  · decide

theorem pySpace_of_isPrereleaseChar {c : Char} (h : isPrereleaseChar c = true) :
    pySpace c = false := by
  have hrange := toNat_of_isPrereleaseChar h
  rw [pySpace, goSpace]
  simp only [List.mem_cons, List.not_mem_nil, or_false, Bool.or_eq_false_iff,
    decide_eq_false_iff_not]
  omega

theorem isPrereleaseChar_of_isDigit {c : Char} (h : c.isDigit = true) :
    isPrereleaseChar c = true := by
  rw [isPrereleaseChar, Char.isAlphanum, h]
  simp only [Bool.or_true, Bool.true_or]

theorem chars_of_readField {s rest : List Char} {n : Nat}
    (h : Agent.readField s = some (n, rest))
    (hrest : ∀ c ∈ rest, isPrereleaseChar c = true) :
    ∀ c ∈ s, isPrereleaseChar c = true := by
  rw [Agent.readField] at h
  split at h
  · obtain ⟨-, rfl⟩ := Prod.mk.inj (Option.some.inj h)
    intro c hc
    rw [← List.takeWhile_append_dropWhile (p := Char.isDigit) (l := s),
      List.mem_append] at hc
    rcases hc with hc | hc
    · exact isPrereleaseChar_of_isDigit (List.mem_takeWhile_imp hc)
    · exact hrest c hc
  · cases h

/-- Every letter of a version is one a prerelease may hold. -/
theorem chars_of_parseVersion {raw : String} {v : Version}
    (h : Agent.parseVersion raw = some v) :
    ∀ c ∈ raw.toList, isPrereleaseChar c = true := by
  simp only [Agent.parseVersion, Option.bind_eq_bind, Option.bind_eq_some_iff,
    Prod.exists] at h
  obtain ⟨major, s₁, hmajor, s₂, hdot, minor, s₃, hminor, s₄, hdot', patch, s₅,
    hpatch, prerelease, hprerelease, -⟩ := h
  have hdotted : ∀ {s : List Char}, (∀ c ∈ s, isPrereleaseChar c = true) →
      ∀ c ∈ '.' :: s, isPrereleaseChar c = true :=
    fun hs => List.forall_mem_cons.mpr ⟨by decide, hs⟩
  have hlast : ∀ c ∈ s₅, isPrereleaseChar c = true := by
    rw [Agent.readPrerelease.eq_def] at hprerelease
    split at hprerelease
    · exact fun _ hc => absurd hc List.not_mem_nil
    · split at hprerelease
      · next hchars =>
        exact List.forall_mem_cons.mpr
          ⟨by decide, List.all_eq_true.mp hchars.2.2⟩
      · cases hprerelease
    · cases hprerelease
  obtain rfl := readDot_eq_some hdot
  obtain rfl := readDot_eq_some hdot'
  exact chars_of_readField hmajor (hdotted (chars_of_readField hminor
    (hdotted (chars_of_readField hpatch hlast))))

/-- A version has no space to strip. -/
theorem strip_of_parseVersion {raw : String} {v : Version}
    (h : Agent.parseVersion raw = some v) : strip raw = raw := by
  have hspace : ∀ c ∈ raw.toList, ¬ pySpace c = true := by
    intro c hc
    rw [pySpace_of_isPrereleaseChar (chars_of_parseVersion h c hc)]
    exact nofun
  have htrim : trim pySpace raw.toList = raw.toList := by
    refine trim_eq_self_iff.mpr ⟨?_, ?_⟩
    · exact List.dropWhile_eq_self_iff.mpr fun hl =>
        hspace _ (List.getElem_mem hl)
    · exact List.rdropWhile_eq_self_iff.mpr fun hl =>
        hspace _ (List.getLast_mem hl)
  rw [strip, htrim, String.ofList_toList]

theorem isPlatformPart_of_platformPart {s : List Char}
    (h : platformPart s = true) :
    isPlatformPart s = true ∧ ∀ c ∈ s, c ≠ '/' := by
  rw [platformPart, Bool.and_eq_true, decide_eq_true_eq, List.all_eq_true] at h
  obtain ⟨hlength, hchars⟩ := h
  have hchar : ∀ c ∈ s, (c.isDigit || c.isLower) = true ∧ c ≠ '/' := by
    intro c hc
    have hrange := of_decide_eq_true (hchars c hc)
    rw [Bool.or_eq_true]
    constructor
    · rcases hrange with hlower | hdigit
      · exact Or.inr (Bool.and_eq_true_iff.mpr
          ⟨decide_eq_true hlower.1, decide_eq_true hlower.2⟩)
      · exact Or.inl (Bool.and_eq_true_iff.mpr
          ⟨decide_eq_true hdigit.1, decide_eq_true hdigit.2⟩)
    · rintro rfl
      revert hrange
      decide
  refine ⟨?_, fun c hc => (hchar c hc).2⟩
  rw [isPlatformPart]
  simp only [Bool.and_eq_true, decide_eq_true_eq, List.all_eq_true]
  exact ⟨hlength, fun c hc => (hchar c hc).1⟩

theorem platformPattern_of_agentPlatform {a : UpdateAgent} {platform : String}
    (h : agentPlatform ops a = some platform) :
    platformPattern platform = true := by
  rw [agentPlatform] at h
  split at h
  · exact nomatch h
  · split at h
    · next hparts =>
      obtain ⟨hos, hslash⟩ := isPlatformPart_of_platformPart hparts.1
      obtain ⟨harch, -⟩ := isPlatformPart_of_platformPart hparts.2
      rw [← Option.some.inj h, platformPattern, cut]
      have hrun : ∀ c ∈ (ops.lower (strip a.os)).toList,
          decide (c ≠ '/') = true :=
        fun c hc => decide_eq_true (hslash c hc)
      simp only [String.toList_append, List.append_assoc]
      rw [List.dropWhile_append_of_pos hrun, List.takeWhile_append_of_pos hrun]
      simp [hos, harch]
    · exact nomatch h

/-! ## What the agent makes of a release -/

theorem agentChannel_checkIn (hops : Documented ops) (h : Host) :
    agentChannel ops (checkIn row h) =
      if h.channel = "" then agentChannel ops row else h.channel := by
  rw [agentChannel, checkIn]
  by_cases hempty : h.channel = ""
  · simp only [if_pos hempty]
    rfl
  · have hnamed : h.channel ∈ ["stable", "beta", "canary"] :=
      (List.mem_cons.mp h.channel_ok).resolve_left hempty
    have hstrips : ∀ channel ∈ ["stable", "beta", "canary"],
        strip channel = channel := by decide
    have hstrip := hstrips h.channel hnamed
    simp only [if_neg hempty, Option.getD_some, hstrip,
      hops.lower h.channel hnamed, if_pos hnamed]

/-- What the agent makes of its configuration. -/
def Host.followed (h : Host) : String :=
  if h.channel = "" then "stable" else h.channel

/-- The options the commands are executed with. -/
def Host.settled (h : Host) (exePath : String) : UpdateOptions :=
  { h.options exePath with channel := h.followed }

theorem normalized_options {exePath : String} (hexe : exePath ≠ "") :
    (h.options exePath).normalized =
      if (Agent.parseVersion h.version).isSome then
        some (h.settled exePath)
      else none := by
  have hplatform : h.platform ≠ "" := by
    intro hnil
    have htext := congrArg String.toList hnil
    rw [Host.platform, String.toList_append, String.toList_append] at htext
    simp at htext
  rw [UpdateOptions.normalized]
  cases hversion : Agent.parseVersion h.version with
  | none => simp [Host.options, hversion]
  | some v =>
      simp [Host.options, hversion, hexe, hplatform]
      rfl

theorem refuseUpdate_eq_none_iff {opts : UpdateOptions}
    {target current floor : Version}
    (htarget : Agent.parseVersion p.version = some target)
    (hcurrent : Agent.parseVersion opts.currentVersion = some current)
    (hfloor : Agent.parseVersion p.minSupportedVersion = some floor) :
    refuseUpdate opts p = none ↔
      ValidPayload p ∧ p.platform = opts.platform ∧
        p.channel = opts.channel ∧ target.compare current = .gt ∧
          target.compare floor ≠ .lt := by
  rw [refuseUpdate, htarget, hcurrent, hfloor]
  by_cases hvalid : ValidPayload p
  · rw [validate_eq_ok_iff.mpr hvalid]
    simp only [hvalid, true_and]
    by_cases hplatform : p.platform = opts.platform
    · by_cases hchannel : p.channel = opts.channel
      · simp only [hplatform, hchannel, ne_eq, not_true_eq_false, if_false,
          true_and]
        exact antiRollback_eq_none_iff
      · simp [hplatform, hchannel]
    · simp [hplatform]
  · cases hchecked : Agent.SelfUpdate.validate p with
    | error e => exact iff_of_false (by intro h; cases h) fun h => hvalid h.1
    | ok u => exact absurd (validate_eq_ok_iff.mp hchecked) hvalid

/-! ## The server's order, the other way round -/

theorem compareItem_swap (l r : List Char) :
    (compareItem l r).swap = compareItem r l := by
  by_cases hne : l = r
  · rw [hne, compareItem_self]
    rfl
  · by_cases htwins : DigitTwins l r
    · have htwins' : DigitTwins r l := ⟨htwins.2.1, htwins.1, htwins.2.2.symm⟩
      rw [compareItem_twins htwins, compareItem_twins htwins']
      rfl
    · have htwins' : ¬ DigitTwins r l :=
        fun h => htwins ⟨h.2.1, h.1, h.2.2.symm⟩
      have hswap : serverBelow l r ↔ ¬ serverBelow r l := by
        rw [serverBelow, serverBelow]
        cases hl : isNumeric l with
        | true =>
            cases hr : isNumeric r with
            | true =>
                have hvalue : value l ≠ value r := fun h => htwins ⟨hl, hr, h⟩
                simp only [not_lt]
                exact ⟨le_of_lt, fun h => lt_of_le_of_ne h hvalue⟩
            | false => simp
        | false =>
            cases hr : isNumeric r with
            | true => simp
            | false =>
                simp only [not_lt]
                exact ⟨le_of_lt, fun h => lt_of_le_of_ne h hne⟩
      rw [compareItem_eq hne htwins, compareItem_eq (Ne.symm hne) htwins']
      by_cases hbelow : serverBelow r l
      · rw [if_pos hbelow, if_neg fun h => hswap.mp h hbelow]
        rfl
      · rw [if_neg hbelow, if_pos (hswap.mpr hbelow)]
        rfl

theorem compareItems_swap (left right : List (List Char)) :
    (List.compareLex compareItem left right).swap =
      List.compareLex compareItem right left := by
  induction left generalizing right with
  | nil => cases right <;> rfl
  | cons l left ih =>
      cases right with
      | nil => rfl
      | cons r right =>
          rw [List.compareLex_cons_cons, List.compareLex_cons_cons,
            Ordering.swap_then, compareItem_swap, ih]

theorem serverOrder_swap (a b : Version) :
    (serverOrder a b).swap = serverOrder b a := by
  rw [serverOrder, serverOrder]
  simp only [Ordering.swap_then, compareItems_swap, Nat.compare_swap]

/-! ## Eligible endpoints that take the release -/

theorem validPayload_of_refuseUpdate {opts : UpdateOptions}
    (h : refuseUpdate opts p = none) : ValidPayload p := by
  rw [refuseUpdate] at h
  cases hchecked : Agent.SelfUpdate.validate p with
  | error e => rw [hchecked] at h; cases h
  | ok u => exact validate_eq_ok_iff.mp hchecked

/-- The comparisons of the agent, where the server's have gone through. -/
theorem agentOrder_iff (hops : Documented ops) {target current floor : Version}
    (htarget : Agent.parseVersion r.version = some target)
    (hcurrent : Agent.parseVersion h.version = some current)
    (hfloor : Agent.parseVersion r.minSupportedVersion = some floor)
    (heligible : Eligible ops r (checkIn row h)) :
    target.compare current = .gt ∧ target.compare floor ≠ .lt ↔
      SignsAlike target current ∧ NotBelow target floor := by
  have hplus : ∀ {raw : String} {v : Version},
      Agent.parseVersion raw = some v → NoPlus (v.prerelease.splitOn '.') :=
    fun hraw => (parseVersion_of_agent hops.digits hraw).2
  have hstrip : strip (checkIn row h).agentVersion = h.version :=
    strip_of_parseVersion hcurrent
  have hforward : serverOrder target current = .gt := by
    have hserver := heligible.forward
    rw [hstrip, compareVersions_eq hops.digits hcurrent htarget] at hserver
    rw [← serverOrder_swap, Option.some.inj hserver]
    rfl
  have hkept : serverOrder target floor ≠ .lt := by
    obtain ⟨o, ho, hne⟩ := heligible.floor
    rw [compareVersions_eq hops.digits htarget hfloor] at ho
    rw [Option.some.inj ho]
    exact hne
  rw [← serverOrder_eq_compare_iff (hplus htarget) (hplus hcurrent), hforward,
    ← compare_ne_lt_iff (hplus htarget) (hplus hfloor) hkept,
    eq_comm (a := Ordering.gt)]

theorem takes_iff_meets (hops : Documented ops) {exePath : String}
    (hexe : exePath ≠ "") (hp : Carries r p)
    (heligible : (evaluateEligibility ops r (checkIn row h)).eligible = true) :
    Takes (h.options exePath) p ↔ Meets ops row h r := by
  have hfacts := eligible_facts heligible
  have hplatform : agentPlatform ops row = some r.platform := hfacts.platform
  have hchannel := (agentChannel_checkIn hops h).symm.trans hfacts.channel
  rw [Takes, normalized_options hexe]
  constructor
  · rintro ⟨opts, hopts, hnone⟩
    split at hopts
    · next hversion =>
      obtain rfl := Option.some.inj hopts
      obtain ⟨current, hcurrent⟩ := Option.isSome_iff_exists.mp hversion
      have hvalid := validPayload_of_refuseUpdate hnone
      obtain ⟨target, htarget⟩ := Option.isSome_iff_exists.mp hvalid.version
      obtain ⟨floor, hfloor⟩ :=
        Option.isSome_iff_exists.mp hvalid.minSupportedVersion
      have hcurrent' : Agent.parseVersion (h.settled exePath).currentVersion =
          some current := hcurrent
      obtain ⟨-, hsame, hfollowed, horder⟩ :=
        (refuseUpdate_eq_none_iff htarget hcurrent' hfloor).mp hnone
      rw [hp.version] at htarget
      rw [hp.minSupportedVersion] at hfloor
      refine ⟨?_, fun hempty => ?_, target, current, floor, htarget, hcurrent,
        hfloor, (agentOrder_iff hops htarget hcurrent hfloor hfacts).mp horder⟩
      · rw [hplatform, ← hp.platform]
        exact congrArg some hsame
      · rw [if_pos hempty] at hchannel
        rw [hchannel, ← hp.channel, hfollowed, Host.settled, Host.followed,
          if_pos hempty]
    · exact nomatch hopts
  · rintro ⟨hplatform', hdefault, target, current, floor, htarget, hcurrent,
      hfloor, horder⟩
    have hsame : r.platform = h.platform :=
      Option.some.inj (hplatform.symm.trans hplatform')
    have hfollowed : r.channel = h.followed := by
      rw [← hchannel, Host.followed]
      by_cases hempty : h.channel = ""
      · rw [if_pos hempty, if_pos hempty, hdefault hempty]
      · rw [if_neg hempty, if_neg hempty]
    have hnamed : h.followed ∈ ["stable", "beta", "canary"] := by
      rw [Host.followed]
      by_cases hempty : h.channel = ""
      · rw [if_pos hempty]
        exact List.mem_cons_self
      · rw [if_neg hempty]
        exact (List.mem_cons.mp h.channel_ok).resolve_left hempty
    have htarget' : Agent.parseVersion p.version = some target :=
      (congrArg Agent.parseVersion hp.version).trans htarget
    have hfloor' : Agent.parseVersion p.minSupportedVersion = some floor :=
      (congrArg Agent.parseVersion hp.minSupportedVersion).trans hfloor
    have hvalid : ValidPayload p :=
      { releaseID := hp.releaseID
        version := Option.isSome_iff_exists.mpr ⟨target, htarget'⟩
        minSupportedVersion := Option.isSome_iff_exists.mpr ⟨floor, hfloor'⟩
        channel := by rw [hp.channel, hfollowed]; exact hnamed
        platform := by
          rw [hp.platform]
          exact platformPattern_of_agentPlatform hplatform
        artifactURL := hp.artifactURL
        artifactSHA256 := hp.artifactSHA256
        sizeBytes := hp.sizeBytes
        signer := hp.signer
        healthTimeout := hp.healthTimeout }
    have hcurrent' : Agent.parseVersion (h.settled exePath).currentVersion =
        some current := hcurrent
    refine ⟨h.settled exePath,
      if_pos (Option.isSome_iff_exists.mpr ⟨current, hcurrent⟩), ?_⟩
    refine (refuseUpdate_eq_none_iff htarget' hcurrent' hfloor').mpr
      ⟨hvalid, hp.platform.trans hsame, hp.channel.trans hfollowed, ?_⟩
    exact (agentOrder_iff hops htarget hcurrent hfloor hfacts).mpr horder

/-- Two versions that both sides accept compare alike exactly where the
spellings of their identifiers are read alike, and an eligible endpoint takes
the release exactly where its row is true of it and the versions compare alike
at the release's place. -/
theorem versions_and_targets_agree_iff (ops : UpdateOps)
    (hops : Documented ops) :
    (∀ u v a b, Agent.parseVersion u = some a → Agent.parseVersion v = some b →
      (compareVersions ops u v = some (a.compare b) ↔ SignsAlike a b)) ∧
    (∀ row h r p exePath, exePath ≠ "" → Carries r p →
      (evaluateEligibility ops r (checkIn row h)).eligible = true →
      (Takes (h.options exePath) p ↔ Meets ops row h r)) := by
  constructor
  · intro u v a b ha hb
    rw [compareVersions_eq hops.digits ha hb, Option.some_inj]
    exact serverOrder_eq_compare_iff (parseVersion_of_agent hops.digits ha).2
      (parseVersion_of_agent hops.digits hb).2
  · intro row h r p exePath hexe hp heligible
    exact takes_iff_meets hops hexe hp heligible

/-! ## A release that goes up for the server and down for the agent -/

theorem documented_sampleOps : Documented RolloutControl.sampleOps :=
  ⟨fun _ _ => rfl, fun _ _ => rfl⟩

def linuxHost (version : String) : Host where
  os := "linux"
  architecture := "amd64"
  version
  channel := ""
  channel_ok := List.mem_cons_self

def linuxRow : UpdateAgent where
  id := "a"
  os := "linux"
  architecture := "amd64"
  supportedCapabilities := ["agent-self-update-v1"]

def linuxRelease (version : String) : AgentUpdateRelease where
  id := "r"
  version
  channel := "stable"
  platform := "linux/amd64"
  minSupportedVersion := "1.0.0-0"
  rolloutPercent := 100
  updatedAt := 0

def linuxPayload (version : String) : UpdatePayload :=
  { releaseOf version with minSupportedVersion := "1.0.0-0" }

theorem carries_linuxPayload (version : String) :
    Carries (linuxRelease version) (linuxPayload version) where
  version := rfl
  channel := rfl
  platform := rfl
  minSupportedVersion := rfl
  releaseID := (by decide : idPattern "release-1" = true)
  artifactURL := (by decide +kernel :
    validArtifactURL "https://updates.example/agent" = true)
  artifactSHA256 := (by decide : sha256Pattern releaseDigest = true)
  sizeBytes := (by decide : (0 : Int) < 3 ∧ (3 : Int) ≤ maxArtifactBytes)
  signer := .inl rfl
  healthTimeout := .inl rfl

def minusFive : Version := ⟨1, 0, 0, ['-', '5'], "1.0.0--5"⟩

def plainThree : Version := ⟨1, 0, 0, ['3'], "1.0.0-3"⟩

theorem parse_minusFive : Agent.parseVersion "1.0.0--5" = some minusFive := by
  decide +kernel

theorem parse_plainThree : Agent.parseVersion "1.0.0-3" = some plainThree := by
  decide +kernel

def oneOne : Version := ⟨1, 1, 0, [], "1.1.0"⟩

theorem parse_oneOne : Agent.parseVersion "1.1.0" = some oneOne := by
  decide +kernel

theorem versions_and_targets_agree_upgrade :
    Documented RolloutControl.sampleOps ∧
      compareVersions RolloutControl.sampleOps "1.1.0" "1.0.0-3" = some .gt ∧
      Takes ((linuxHost "1.0.0-3").options "/opt/agent")
        (linuxPayload "1.1.0") := by
  obtain ⟨hversions, htargets⟩ :=
    versions_and_targets_agree_iff RolloutControl.sampleOps documented_sampleOps
  have hgreater : SignsAlike oneOne plainThree :=
    fun hnumbers => absurd hnumbers (by decide)
  have hmeets : Meets RolloutControl.sampleOps linuxRow (linuxHost "1.0.0-3")
      (linuxRelease "1.1.0") :=
    { platform := by decide +kernel
      channel := fun _ => by decide +kernel
      versions := ⟨oneOne, plainThree, ⟨1, 0, 0, ['0'], "1.0.0-0"⟩,
        parse_oneOne, parse_plainThree, by decide +kernel, hgreater,
        fun hnumbers => absurd hnumbers (by decide)⟩ }
  refine ⟨documented_sampleOps, ?_, ?_⟩
  · exact (hversions _ _ _ _ parse_oneOne parse_plainThree).mpr hgreater
  · exact (htargets linuxRow (linuxHost "1.0.0-3") (linuxRelease "1.1.0")
      (linuxPayload "1.1.0") "/opt/agent" (by decide)
      (carries_linuxPayload "1.1.0") (by decide +kernel)).mpr hmeets

/-- Where 1.0.0-3 runs, the server sends 1.0.0--5, and the agent refuses it as
a downgrade. -/
theorem versions_and_targets_disagree :
    (compareVersions RolloutControl.sampleOps "1.0.0--5" "1.0.0-3" = some .gt ∧
      minusFive.compare plainThree = .lt) ∧
    (evaluateEligibility RolloutControl.sampleOps (linuxRelease "1.0.0--5")
        (checkIn linuxRow (linuxHost "1.0.0-3"))).eligible = true ∧
    ¬ Takes ((linuxHost "1.0.0-3").options "/opt/agent")
      (linuxPayload "1.0.0--5") := by
  have hcompare : minusFive.compare plainThree = .lt := by decide +kernel
  refine ⟨⟨by decide +kernel, hcompare⟩, by decide +kernel, ?_⟩
  rintro ⟨opts, hopts, hnone⟩
  rw [normalized_options (by decide)] at hopts
  split at hopts
  · obtain rfl := Option.some.inj hopts
    have hfloor :
        Agent.parseVersion (linuxPayload "1.0.0--5").minSupportedVersion =
          some ⟨1, 0, 0, ['0'], "1.0.0-0"⟩ := by decide +kernel
    have horder := (refuseUpdate_eq_none_iff parse_minusFive parse_plainThree
      hfloor).mp hnone
    rw [hcompare] at horder
    exact nomatch horder.2.2.2.1
  · exact nomatch hopts

end NodeLink.Proofs.UpdateTargets
