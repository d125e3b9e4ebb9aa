import NodeLink.Server.Rollouts

/-!
# Rollouts that are stopped, and rollouts that go on

A request decides on the copy of the release it has read, and commits whatever
stands by then. So a pause, a resume or a first advance that read the release
before it was halted takes the halt back, an advance that found it rolling
leaves the halt and dispatches after it, and of two advances the lower may
commit last. Attempts are unique, which keeps commands unique in any case. A
run stays good as long as no request commits over a release that has moved on
in one of these ways.
-/

namespace NodeLink.Proofs.RolloutControl

open Lib Server.AgentUpdates Server.Rollouts

variable {ops : UpdateOps} {s s' : State} {t : Nat} {x : Txn} {w : Writes}

/-! ## What an advance targets -/

theorem eligible_bucket {r : AgentUpdateRelease} {a : UpdateAgent}
    (h : (evaluateEligibility ops r a).eligible = true) :
    rolloutBucket ops r.id a.id < r.rolloutPercent := by
  unfold evaluateEligibility at h
  split at h
  · cases h
  · split at h
    · cases h
    · split at h
      · cases h
      · split at h
        · cases h
        · split at h
          · cases h
          · split at h
            · cases h
            · split at h
              · cases h
              · split at h
                · cases h
                · next hbucket => exact Nat.lt_of_not_le hbucket

theorem passOver_none {r : AgentUpdateRelease} {already : List String}
    {a : UpdateAgent} (h : passOver ops r already a = none) :
    a.id ∉ already ∧ rolloutBucket ops r.id a.id < r.rolloutPercent := by
  unfold passOver at h
  split at h
  · cases h
  · next hnew =>
      split at h
      · cases h
      · next heligible =>
          rw [Bool.not_eq_false] at heligible
          exact ⟨hnew, eligible_bucket heligible⟩

/-- Every endpoint that is targeted is below the stage. -/
theorem target_bucket {r : AgentUpdateRelease} {already : List String} {n : Nat}
    {candidates : List UpdateAgent} {a : UpdateAgent}
    (h : a ∈ (target ops r already n candidates).agents) :
    rolloutBucket ops r.id a.id < r.rolloutPercent := by
  induction candidates generalizing n with
  | nil =>
      unfold target at h
      exact absurd h List.not_mem_nil
  | cons b candidates ih =>
      unfold target at h
      split at h
      · exact ih h
      · next hpass =>
          cases n with
          | zero => exact absurd h List.not_mem_nil
          | succ n =>
              rcases List.mem_cons.mp h with rfl | hrest
              · exact (passOver_none hpass).2
              · exact ih hrest

/-! ## Requests under way -/

/-- The copy is one of the release, and the commands that are going to be
committed have an attempt each and are below the stage the request leaves. -/
structure Sound (ops : UpdateOps) (s : State) (x : Txn) : Prop where
  id : x.read.id = s.release.id
  below : ∀ w, x.writes = some w → ∀ c ∈ w.commands,
    rolloutBucket ops s.release.id c.agentId < w.release.rolloutPercent
  paired : ∀ w, x.writes = some w →
    w.commands.map (·.agentId) = w.attempts.map (·.agentId)

def AllSound (ops : UpdateOps) (s : State) : Prop :=
  ∀ t x, s.txns.Has t x → Sound ops s x

theorem Sound.of_id (h : Sound ops s x) (hid : s'.release.id = s.release.id) :
    Sound ops s' x := by
  obtain ⟨hread, hbelow, hpaired⟩ := h
  rw [← hid] at hread hbelow
  exact ⟨hread, hbelow, hpaired⟩

theorem AllSound.put (h : AllSound ops s) (hx : Sound ops s x)
    (htxns : s'.txns = s.txns.put t x) (hid : s'.release.id = s.release.id) :
    AllSound ops s' := by
  intro u y hy
  rw [htxns] at hy
  rcases Open.has_put.mp hy with ⟨_, rfl⟩ | ⟨hold, _⟩
  · exact hx.of_id hid
  · exact (h u y hold).of_id hid

theorem AllSound.close (h : AllSound ops s) (htxns : s'.txns = s.txns.close t)
    (hid : s'.release.id = s.release.id) : AllSound ops s' := by
  intro u y hy
  rw [htxns] at hy
  exact (h u y (Open.has_close.mp hy).1).of_id hid

/-- A request that adds nothing. -/
theorem sound_plain (hid : x.read.id = s.release.id)
    (h : ∀ w, x.writes = some w → w.commands = [] ∧ w.attempts = []) :
    Sound ops s x where
  id := hid
  below w hw c hc := by
    rw [(h w hw).1] at hc
    exact absurd hc List.not_mem_nil
  paired w hw := by
    rw [(h w hw).1, (h w hw).2]
    rfl

theorem sound_opened {now : Int} {request : Request} :
    Sound ops s (opened s now request) := by
  cases request with
  | advance rolloutPercent maxDispatch => exact sound_plain rfl fun _ h => by cases h
  | pause =>
      refine sound_plain rfl fun w hw => ?_
      cases hw
      exact ⟨rfl, rfl⟩
  | resume => exact sound_plain rfl fun _ h => by cases h
  | halt =>
      refine sound_plain rfl fun w hw => ?_
      cases hw
      exact ⟨rfl, rfl⟩
  | report agentId body => exact sound_plain rfl fun _ h => by cases h

theorem sound_counted {now : Int} (h : Sound ops s x) (hnone : x.writes = none) :
    Sound ops s (counted s x now) := by
  unfold counted
  split
  · split
    · refine sound_plain h.id fun w hw => ?_
      cases hw
      exact ⟨rfl, rfl⟩
    · refine sound_plain rfl fun w hw => ?_
      cases hw
      exact ⟨rfl, rfl⟩
  · split
    · refine sound_plain h.id fun w hw => ?_
      cases hw
      exact ⟨rfl, rfl⟩
    · refine sound_plain h.id fun w hw => ?_
      rw [hnone] at hw
      cases hw
  · split
    · refine sound_plain h.id fun w hw => ?_
      cases hw
      exact ⟨rfl, rfl⟩
    · refine sound_plain h.id fun w hw => ?_
      cases hw
      exact ⟨rfl, rfl⟩
  · exact h

theorem mem_zipWith_dispatch {r : AgentUpdateRelease} {now : Int}
    {ids : List String} {agents : List UpdateAgent} {c : UpdateCommand}
    (h : c ∈ List.zipWith (dispatchUpdateCommand r now) ids agents) :
    ∃ a ∈ agents, c.agentId = a.id := by
  induction ids generalizing agents with
  | nil => exact absurd h List.not_mem_nil
  | cons id ids ih =>
      cases agents with
      | nil => exact absurd h List.not_mem_nil
      | cons a agents =>
          rcases List.mem_cons.mp h with rfl | hrest
          · exact ⟨a, List.mem_cons_self, rfl⟩
          · obtain ⟨b, hb, hid⟩ := ih hrest
            exact ⟨b, List.mem_cons_of_mem a hb, hid⟩

theorem sound_advance {now : Int} {ids : List String}
    {rolloutPercent maxDispatch : Nat} (h : Sound ops s x) :
    Sound ops s { x with
      writes := some (advanceWrites ops (advanced x.read rolloutPercent now) now
        ids (targeted ops s (advanced x.read rolloutPercent now) maxDispatch)) }
    where
  id := h.id
  below w hw c hc := by
    cases hw
    obtain ⟨a, ha, hid⟩ := mem_zipWith_dispatch hc
    have hbucket := target_bucket ha
    rw [hid, ← h.id]
    exact hbucket
  paired w hw := by
    cases hw
    rw [advanceWrites, List.map_zipWith, List.map_zipWith]
    rfl

/-! ## The books -/

/-- An endpoint has one attempt, and a command only with it. -/
structure Booked (s : State) : Prop where
  attempts : (s.attempts.map (·.agentId)).Nodup
  commands : (s.commands.map (·.agentId)).Nodup
  attempted : ∀ c ∈ s.commands, c.agentId ∈ s.attempts.map (·.agentId)

/-- Every command went to an endpoint below the stage. -/
def Below (ops : UpdateOps) (s : State) : Prop :=
  ∀ c ∈ s.commands,
    rolloutBucket ops s.release.id c.agentId < s.release.rolloutPercent

theorem map_withOutcome {attempts : List AgentUpdateAttempt}
    {outcome : Option (AgentUpdateAttempt × AgentUpdateAttempt)} :
    (withOutcome attempts outcome).map (·.agentId) =
      attempts.map (·.agentId) := by
  unfold withOutcome
  split
  · rfl
  · rw [List.map_map]
    refine List.map_congr_left fun a _ => ?_
    show (if _ then _ else _ : AgentUpdateAttempt).agentId = a.agentId
    split
    · rfl
    · rfl

/-- The state a commit leads to. -/
def committed (s : State) (t : Nat) (x : Txn) (w : Writes) : State :=
  { s with
    release := releaseEdit x.read w.release s.release
    attempts := w.attempts ++ withOutcome s.attempts w.outcome
    commands := w.commands ++ s.commands
    txns := s.txns.close t }

theorem Booked.commit (h : Booked s) (hx : Sound ops s x)
    (hw : x.writes = some w) (hunique : unique s w = true) :
    Booked (committed s t x w) := by
  have hnodup := of_decide_eq_true hunique
  have hids : (committed s t x w).attempts.map (·.agentId) =
      w.attempts.map (·.agentId) ++ s.attempts.map (·.agentId) := by
    show (w.attempts ++ withOutcome s.attempts w.outcome).map _ = _
    rw [List.map_append, map_withOutcome]
  rw [List.map_append] at hnodup
  have hcommands : (committed s t x w).commands.map (·.agentId) =
      w.attempts.map (·.agentId) ++ s.commands.map (·.agentId) := by
    show (w.commands ++ s.commands).map _ = _
    rw [List.map_append, hx.paired w hw]
  have hattempted : ∀ id ∈ s.commands.map (·.agentId),
      id ∈ s.attempts.map (·.agentId) := by
    intro id hid
    obtain ⟨c, hc, rfl⟩ := List.mem_map.mp hid
    exact h.attempted c hc
  obtain ⟨hnew, hold, hdisjoint⟩ := List.nodup_append.mp hnodup
  refine ⟨by rw [hids]; exact hnodup, ?_, ?_⟩
  · rw [hcommands]
    refine List.nodup_append.mpr ⟨hnew, h.commands, ?_⟩
    exact fun a ha b hb => hdisjoint a ha b (hattempted b hb)
  · intro c hc
    rw [hids]
    have hmem : c.agentId ∈ (committed s t x w).commands.map (·.agentId) :=
      List.mem_map_of_mem hc
    rw [hcommands] at hmem
    rcases List.mem_append.mp hmem with hnew | hold
    · exact List.mem_append_left _ hnew
    · exact List.mem_append_right _ (hattempted _ hold)

/-! ## Commits over a release that has moved on -/

/-- The release is not halted; or else the request halts it too, or leaves its
state as it read it and dispatches nothing. The stage is not above the one the
request sets; and if it sets none, it is above the endpoints it dispatches
to. -/
structure Fits (ops : UpdateOps) (s : State) (x : Txn) (w : Writes) : Prop where
  halt : s.release.state = .halted →
    (w.release.state = x.read.state ∨ w.release.state = .halted) ∧
      w.commands = []
  raise : w.release.rolloutPercent ≠ x.read.rolloutPercent →
    s.release.rolloutPercent ≤ w.release.rolloutPercent
  within : w.release.rolloutPercent = x.read.rolloutPercent →
    ∀ c ∈ w.commands,
      rolloutBucket ops s.release.id c.agentId < s.release.rolloutPercent

def Clear (ops : UpdateOps) (s : State) : Action → Prop
  | .commit t => ∀ x w, s.txns.get t = some x → x.writes = some w →
    Fits ops s x w
  | _ => True

/-- What a step must keep: a halt, with the commands there are; the stage, or a
higher one; and that commands are below it. -/
structure Keeps (ops : UpdateOps) (s s' : State) : Prop where
  halted : s.release.state = .halted →
    s'.release.state = .halted ∧ s'.commands = s.commands
  percent : s.release.rolloutPercent ≤ s'.release.rolloutPercent
  below : Below ops s → Below ops s'

theorem Keeps.refl : Keeps ops s s :=
  ⟨fun h => ⟨h, rfl⟩, Nat.le_refl _, fun h => h⟩

theorem Keeps.of_eq (hrelease : s'.release = s.release)
    (hcommands : s'.commands = s.commands) : Keeps ops s s' := by
  refine ⟨fun h => ?_, ?_, fun h c hc => ?_⟩
  · rw [hrelease]
    exact ⟨h, hcommands⟩
  · rw [hrelease]
  · rw [hcommands] at hc
    rw [hrelease]
    exact h c hc

theorem Keeps.trans {s'' : State} (h : Keeps ops s s') (h' : Keeps ops s' s'') :
    Keeps ops s s'' := by
  refine ⟨fun hs => ?_, h.percent.trans h'.percent, fun hs => h'.below (h.below hs)⟩
  obtain ⟨hhalted, hcommands⟩ := h.halted hs
  obtain ⟨hhalted', hcommands'⟩ := h'.halted hhalted
  exact ⟨hhalted', hcommands'.trans hcommands⟩

theorem written_self {α : Type} {new current : α} :
    written true new current = current := rfl

theorem written_new {α : Type} {new current : α} :
    written false new current = new := rfl

/-- A commit keeps what it must exactly when it fits. -/
theorem keeps_commit_iff (hx : Sound ops s x) (hw : x.writes = some w)
    (hbelow : Below ops s) :
    Keeps ops s (committed s t x w) ↔ Fits ops s x w := by
  have hstate : (committed s t x w).release.state =
      written (decide (w.release.state = x.read.state)) w.release.state
        s.release.state := rfl
  have hpercent : (committed s t x w).release.rolloutPercent =
      written (decide (w.release.rolloutPercent = x.read.rolloutPercent))
        w.release.rolloutPercent s.release.rolloutPercent := rfl
  constructor
  · intro h
    refine ⟨fun hhalted => ?_, fun hne => ?_, fun heq c hc => ?_⟩
    · obtain ⟨hstill, hcommands⟩ := h.halted hhalted
      refine ⟨?_, List.append_left_eq_self.mp hcommands⟩
      by_cases hsame : w.release.state = x.read.state
      · exact .inl hsame
      · rw [hstate, decide_eq_false hsame, written_new] at hstill
        exact .inr hstill
    · have hle := h.percent
      rw [hpercent, decide_eq_false hne, written_new] at hle
      exact hle
    · have hlt := h.below hbelow c (List.mem_append_left _ hc)
      rw [hpercent, decide_eq_true heq, written_self] at hlt
      exact hlt
  · intro h
    have hle : s.release.rolloutPercent ≤
        (committed s t x w).release.rolloutPercent := by
      rw [hpercent]
      by_cases hsame : w.release.rolloutPercent = x.read.rolloutPercent
      · rw [decide_eq_true hsame, written_self]
      · rw [decide_eq_false hsame, written_new]
        exact h.raise hsame
    refine ⟨fun hhalted => ?_, hle, fun _ c hc => ?_⟩
    · obtain ⟨hset, hnone⟩ := h.halt hhalted
      constructor
      · rw [hstate]
        by_cases hsame : w.release.state = x.read.state
        · rw [decide_eq_true hsame, written_self]
          exact hhalted
        · rw [decide_eq_false hsame, written_new]
          exact hset.resolve_left hsame
      · show w.commands ++ s.commands = s.commands
        rw [hnone, List.nil_append]
    · show rolloutBucket ops s.release.id c.agentId < _
      rcases List.mem_append.mp hc with hnew | hold
      · rw [hpercent]
        by_cases hsame : w.release.rolloutPercent = x.read.rolloutPercent
        · rw [decide_eq_true hsame, written_self]
          exact h.within hsame c hnew
        · rw [decide_eq_false hsame, written_new]
          exact hx.below w hw c hnew
      · exact Nat.lt_of_lt_of_le (hbelow c hold) hle

/-! ## Runs -/

/-- Every action keeps the books, and a clear one the rest. -/
theorem next_kept {a : Action} (hsound : AllSound ops s) (hbooked : Booked s)
    (henabled : enabled ops s a = true) :
    AllSound ops (next ops s a) ∧ Booked (next ops s a) ∧
      (Below ops s → Clear ops s a → Keeps ops s (next ops s a)) := by
  have hplain : ∀ {s'}, s'.release = s.release → s'.commands = s.commands →
      s'.attempts = s.attempts → Booked s' ∧
        (Below ops s → Clear ops s a → Keeps ops s s') := by
    intro s' hrelease hcommands hattempts
    refine ⟨⟨?_, ?_, ?_⟩, fun _ _ => .of_eq hrelease hcommands⟩
    · rw [hattempts]
      exact hbooked.attempts
    · rw [hcommands]
      exact hbooked.commands
    · rw [hcommands, hattempts]
      exact hbooked.attempted
  cases a with
  | fleet agents =>
      exact ⟨fun u y hy => (hsound u y hy).of_id rfl, hplain rfl rfl rfl⟩
  | begin t now request =>
      rw [next]
      split
      · exact ⟨hsound, hplain rfl rfl rfl⟩
      · exact ⟨hsound.put sound_opened rfl rfl, hplain rfl rfl rfl⟩
  | count t now =>
      rw [next]
      split
      · exact ⟨hsound, hplain rfl rfl rfl⟩
      · next x hx =>
          simp only [enabled, hx, Bool.and_eq_true,
            Option.isNone_iff_eq_none] at henabled
          have hx' := hsound t x (Open.has_of_get hx)
          exact ⟨hsound.put (sound_counted hx' henabled.1) rfl rfl,
            hplain rfl rfl rfl⟩
  | target t now ids =>
      rw [next]
      split
      · exact ⟨hsound, hplain rfl rfl rfl⟩
      · next x hx =>
          have hx' := hsound t x (Open.has_of_get hx)
          split
          · exact ⟨hsound.put (sound_advance hx') rfl rfl, hplain rfl rfl rfl⟩
          · exact ⟨hsound, hplain rfl rfl rfl⟩
  | commit t =>
      rw [next]
      split
      · exact ⟨hsound, hplain rfl rfl rfl⟩
      · next x hx =>
          have hx' := hsound t x (Open.has_of_get hx)
          split
          · exact ⟨hsound, hplain rfl rfl rfl⟩
          · next w hw =>
              simp only [enabled, hx, hw] at henabled
              refine ⟨hsound.close rfl rfl, hbooked.commit hx' hw henabled, ?_⟩
              exact fun hbelow hclear =>
                (keeps_commit_iff hx' hw hbelow).mpr (hclear x w hx hw)
  | abort t => exact ⟨hsound.close rfl rfl, hplain rfl rfl rfl⟩

theorem run_kept {acts : List Action} (hsound : AllSound ops s)
    (hbooked : Booked s) (hruns : (system ops).runs s acts = true) :
    AllSound ops ((system ops).run s acts) ∧
      Booked ((system ops).run s acts) ∧
      (Below ops s → (system ops).Each (Clear ops) s acts →
        Keeps ops s ((system ops).run s acts)) := by
  induction acts generalizing s with
  | nil => exact ⟨hsound, hbooked, fun _ _ => .refl⟩
  | cons a acts ih =>
      obtain ⟨henabled, hrest⟩ := System.runs_cons.mp hruns
      obtain ⟨hsound', hbooked', hkeeps⟩ := next_kept hsound hbooked henabled
      obtain ⟨hsound'', hbooked'', hkeeps'⟩ := ih hsound' hbooked' hrest
      refine ⟨hsound'', hbooked'', fun hbelow hclear => ?_⟩
      have hstep := hkeeps hbelow hclear.1
      exact hstep.trans (hkeeps' (hstep.below hbelow) hclear.2)

/-- In every run no endpoint gets a second command. And from any state of a run
in which every commit fits: a halt stays and nothing is dispatched after it,
the stage does not fall, and every endpoint with a command is below it. -/
theorem rollout_controlled_while (hidle : s.txns = {}) (hbooked : Booked s)
    (hbelow : Below ops s) {pre post : List Action}
    (hruns : (system ops).runs s (pre ++ post) = true) :
    (∀ id, (((system ops).run s pre).commands.filter fun c =>
      decide (c.agentId = id)).length ≤ 1) ∧
    ((system ops).Each (Clear ops) s (pre ++ post) →
      (((system ops).run s pre).release.state = .halted →
        ((system ops).run s (pre ++ post)).release.state = .halted ∧
        ((system ops).run s (pre ++ post)).commands =
          ((system ops).run s pre).commands) ∧
      ((system ops).run s pre).release.rolloutPercent ≤
        ((system ops).run s (pre ++ post)).release.rolloutPercent ∧
      ∀ c ∈ ((system ops).run s pre).commands,
        rolloutBucket ops ((system ops).run s pre).release.id c.agentId <
          ((system ops).run s pre).release.rolloutPercent) := by
  have hsound : AllSound ops s := by
    intro t x hx
    rw [hidle] at hx
    exact absurd hx Open.not_has_empty
  obtain ⟨hpre, hpost⟩ := System.runs_append.mp hruns
  obtain ⟨hsound', hbooked', hkeeps⟩ := run_kept hsound hbooked hpre
  constructor
  · intro id
    have hcount := List.nodup_iff_count_le_one.mp hbooked'.commands id
    rw [List.count_eq_countP, List.countP_map, List.countP_eq_length_filter]
      at hcount
    exact hcount
  · intro hclear
    obtain ⟨hclear₁, hclear₂⟩ := System.each_append.mp hclear
    have hbelow' := (hkeeps hbelow hclear₁).below hbelow
    obtain ⟨_, _, hkeeps'⟩ := run_kept hsound' hbooked' hpost
    have hlast := hkeeps' hbelow' hclear₂
    rw [System.run_append]
    exact ⟨hlast.halted, hlast.percent, hbelow'⟩

/-- SHA-256 of `r:a`; ASCII digits, and texts in lower case. -/
def sampleOps : UpdateOps where
  sha256 _ :=
    [0x23, 0xe4, 0x73, 0x80, 0xc5, 0x4b, 0x49, 0x9e,
      0xb8, 0x00, 0xf8, 0xf4, 0x1c, 0x8c, 0x86, 0xb5,
      0x5e, 0x90, 0x19, 0xff, 0xe2, 0x85, 0x06, 0x5a,
      0xcb, 0x69, 0x4a, 0x34, 0x17, 0xc6, 0xe6, 0x4f]
  digit c := if c.isDigit then some (c.toNat - 48) else none
  lower := id

/-- A new release, and an endpoint it can reach. -/
def published : State where
  release :=
    { id := "r"
      version := "1.1.0"
      channel := "stable"
      platform := "windows/amd64"
      minSupportedVersion := "1.0.0"
      updatedAt := 0 }
  fleet :=
    [{ id := "a"
       os := "windows"
       architecture := "amd64"
       agentVersion := "1.0.0"
       supportedCapabilities := ["agent-self-update-v1"]
       commandEnvelopeVersions := ["command-v3"] }]

/-- An advance to all endpoints that reaches the one there is. -/
def advances (t : Nat) : List Action :=
  [.begin t 1 (.advance 100 200), .count t 1, .target t 1 ["k"]]

/-- The endpoint is updated, reports, and the release is halted. -/
def completes : List Action :=
  advances 0 ++ [.commit 0,
    .begin 1 2 (.report "a" { status := .succeeded }), .count 1 2, .commit 1,
    .begin 2 3 .halt]

instance : Decidable (Fits ops s x w) :=
  decidable_of_iff
    ((s.release.state = .halted →
        (w.release.state = x.read.state ∨ w.release.state = .halted) ∧
          w.commands = []) ∧
      (w.release.rolloutPercent ≠ x.read.rolloutPercent →
        s.release.rolloutPercent ≤ w.release.rolloutPercent) ∧
      (w.release.rolloutPercent = x.read.rolloutPercent →
        ∀ c ∈ w.commands,
          rolloutBucket ops s.release.id c.agentId < s.release.rolloutPercent))
    ⟨fun h => ⟨h.1, h.2.1, h.2.2⟩, fun h => ⟨h.halt, h.raise, h.within⟩⟩

theorem clear_commit (h : ((s.txns.get t).all fun x =>
    x.writes.all fun w => decide (Fits ops s x w)) = true) :
    Clear ops s (.commit t) := by
  intro x w hx hw
  rw [hx, Option.all_some, hw, Option.all_some] at h
  exact of_decide_eq_true h

theorem rollout_controlled_while_completes :
    ((system sampleOps).run published (completes ++ [.commit 2])).commands.length
        = 1 ∧
      ((system sampleOps).run published ((completes ++ [.commit 2]) ++
        [.begin 3 4 .pause])).release.state = .halted := by
  have hbooked : Booked published :=
    ⟨List.nodup_nil, List.nodup_nil, fun _ hc => absurd hc List.not_mem_nil⟩
  have hbelow : Below sampleOps published :=
    fun _ hc => absurd hc List.not_mem_nil
  have hruns : (system sampleOps).runs published ((completes ++ [.commit 2]) ++
      [.begin 3 4 .pause]) = true := by decide +kernel
  have hclear : (system sampleOps).Each (Clear sampleOps) published
      ((completes ++ [.commit 2]) ++ [.begin 3 4 .pause]) :=
    ⟨trivial, trivial, trivial, clear_commit (by decide +kernel), trivial,
      trivial, clear_commit (by decide +kernel), trivial,
      clear_commit (by decide +kernel), trivial, trivial⟩
  have hkept := (rollout_controlled_while rfl hbooked hbelow hruns).2 hclear
  exact ⟨by decide +kernel, (hkept.1 (by decide +kernel)).1⟩

/-- Two advances that reach nobody, the lower one read first and committed
last. -/
def crosses : List Action :=
  [.begin 0 1 (.advance 20 200), .begin 1 1 (.advance 50 200), .count 0 1,
    .count 1 1, .target 0 1 [], .target 1 1 [], .commit 1, .commit 0]

/-- An advance that read the release before it was halted takes the halt back
and dispatches after it; and the stage falls from one commit to the next. -/
theorem rollout_not_controlled :
    ((system sampleOps).runs published
        (advances 0 ++ [.begin 1 2 .halt, .commit 1, .commit 0]) = true ∧
      ((system sampleOps).run published
        (advances 0 ++ [.begin 1 2 .halt, .commit 1])).release.state = .halted ∧
      ((system sampleOps).run published
        (advances 0 ++ [.begin 1 2 .halt, .commit 1])).commands = [] ∧
      ((system sampleOps).run published
        (advances 0 ++ [.begin 1 2 .halt, .commit 1, .commit 0])).release.state =
          .rolling ∧
      ((system sampleOps).run published
        (advances 0 ++ [.begin 1 2 .halt, .commit 1, .commit 0])).commands.length
          = 1) ∧
    ((system sampleOps).runs { published with fleet := [] } crosses = true ∧
      ((system sampleOps).run { published with fleet := [] }
        (crosses.take 7)).release.rolloutPercent = 50 ∧
      ((system sampleOps).run { published with fleet := [] }
        crosses).release.rolloutPercent = 20) := by
  decide +kernel

end NodeLink.Proofs.RolloutControl
