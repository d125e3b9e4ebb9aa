import NodeLink.Proofs.AgentRefinement
import NodeLink.Proofs.JournalGuard

/-!
# The agent starts no command twice

Whatever the order of deliveries, failed saves, crashes and restarts, no two
started commands share a command id or a nonce.

The file protects every started command whose signed expiry has not passed,
and so does the map in memory; between commands that map holds no
reservation recovery could release. A command passes the replay gate only
before its signed expiry and only if neither of its keys is in the map. A
started command with one of those keys would, being signed by the same
signer, carry the same expiry, so it would be protected, and the key would
be there.
-/

namespace NodeLink.Proofs

open Lib Agent Protocol

variable {Key : Type} {ed25519Verify : Key → Bytes → Bytes → Bool}

/-- Every started command is protected until it expires. -/
def ProtectsStarted (s : SeenStore) (w : AgentWorld) : Prop :=
  ∀ cmd ∈ w.started, signedExpiry cmd < wallTime w.clock ∨ Protects s cmd

/-- No two commands of the list share an id or a nonce. -/
def DistinctKeys (cmds : List Command) : Prop :=
  cmds.Pairwise fun a b => a.id ≠ b.id ∧ a.nonce ≠ b.nonce

/-- What holds at any time, a crash included. -/
structure Durable (sg : Signer ed25519Verify) (w : AgentWorld) : Prop where
  disk : ProtectsStarted w.disk w
  distinct : DistinctKeys w.started
  signed : ∀ cmd ∈ w.started, SignedBy sg cmd
  live : ∀ cmd ∈ w.started, zeroTime < signedExpiry cmd

/-- A command that may be started: the signer signed it, and none of its
keys has been used. -/
structure Startable (sg : Signer ed25519Verify) (w : AgentWorld)
    (cmd : Command) : Prop where
  signed : SignedBy sg cmd
  live : zeroTime < signedExpiry cmd
  fresh : ∀ c ∈ w.started, cmd.id ≠ c.id ∧ cmd.nonce ≠ c.nonce

/-- What holds of the map in memory. -/
def Guards (sg : Signer ed25519Verify) (w : AgentWorld) : Phase → Prop
  | .down => True
  | .loaded s => ProtectsStarted s w
  | .quiet s => ProtectsStarted s w ∧ NoReservation s
  | .reserved s cmd =>
    ProtectsStarted s w ∧ Startable sg w cmd ∧
      Covered s cmd.id (signedExpiry cmd) ∧
      Covered s (nonceKey cmd.nonce) (signedExpiry cmd) ∧
      ∀ key entry, s.lookup key = some entry →
        SeenStore.releasable key entry = true → key = cmd.id
  | .armed s cmd =>
    ProtectsStarted s w ∧ NoReservation s ∧ Startable sg w cmd ∧
      Protects s cmd ∧ w.disk = s
  | .ran s _ _ => ProtectsStarted s w ∧ NoReservation s

/-- The invariant of the protocol. -/
def Guarded (sg : Signer ed25519Verify) (c : AgentWorld × Phase) : Prop :=
  Durable sg c.1 ∧ Guards sg c.1 c.2

/-! ## What a step leaves unchanged -/

/-- Worlds with the same file and the same commands started, the second not
earlier than the first. -/
structure SameCore (w w' : AgentWorld) : Prop where
  disk : w'.disk = w.disk
  started : w'.started = w.started
  clock : w.clock ≤ w'.clock

theorem wallTime_mono {a b : Nat} (h : a ≤ b) : wallTime a ≤ wallTime b := by
  unfold wallTime
  omega

theorem ProtectsStarted.later {s : SeenStore} {w w' : AgentWorld}
    (h : ProtectsStarted s w) (hs : w'.started = w.started)
    (hc : w.clock ≤ w'.clock) : ProtectsStarted s w' := by
  intro cmd hcmd
  rw [hs] at hcmd
  have := wallTime_mono hc
  rcases h cmd hcmd with he | hp
  · left
    omega
  · exact Or.inr hp

theorem Durable.later {sg : Signer ed25519Verify} {w w' : AgentWorld}
    (h : Durable sg w) (hw : SameCore w w') : Durable sg w' := by
  obtain ⟨hd, hs, hc⟩ := hw
  refine ⟨?_, ?_, ?_, ?_⟩
  · rw [hd]
    exact h.disk.later hs hc
  · rw [hs]
    exact h.distinct
  · rw [hs]
    exact h.signed
  · rw [hs]
    exact h.live

theorem Startable.later {sg : Signer ed25519Verify} {w w' : AgentWorld}
    {cmd : Command} (h : Startable sg w cmd) (hs : w'.started = w.started) :
    Startable sg w' cmd := by
  refine ⟨h.signed, h.live, ?_⟩
  rw [hs]
  exact h.fresh

theorem Guarded.later {sg : Signer ed25519Verify} {w w' : AgentWorld}
    {ph : Phase} (h : Guarded sg (w, ph)) (hw : SameCore w w') :
    Guarded sg (w', ph) := by
  obtain ⟨hdur, hg⟩ := h
  refine ⟨hdur.later hw, ?_⟩
  obtain ⟨hd, hs, hc⟩ := hw
  cases ph with
  | down => trivial
  | loaded s => exact hg.later hs hc
  | quiet s => exact ⟨hg.1.later hs hc, hg.2⟩
  | reserved s cmd => exact ⟨hg.1.later hs hc, hg.2.1.later hs, hg.2.2⟩
  | armed s cmd =>
      obtain ⟨hp, hn, hst, hpr, hdisk⟩ := hg
      exact ⟨hp.later hs hc, hn, hst.later hs, hpr, hd.trans hdisk⟩
  | ran s cmd res => exact ⟨hg.1.later hs hc, hg.2⟩

/-! ## Updates of the map -/

section Updates

variable {sg : Signer ed25519Verify} {s : SeenStore} {w : AgentWorld}

/-- Rewriting the state of an entry, never to a reservation. -/
theorem ProtectsStarted.restate {key : String} {entry : SeenEntry}
    (h : ProtectsStarted s w) (hlook : s.lookup key = some entry)
    (state : ExecutionState) (hstate : state ≠ .reserved) :
    ProtectsStarted (s.insert key { entry with state := some state }) w := by
  intro cmd hcmd
  refine (h cmd hcmd).imp_right fun hp => hp.insert ?_ ?_
  · intro heq
    exact hstate (Option.some.inj heq)
  · intro old hold hle
    rw [hlook] at hold
    obtain rfl := Option.some.inj hold
    exact hle

theorem NoReservation.restate {key : String} {entry : SeenEntry}
    {state : ExecutionState} (h : NoReservation s)
    (hstate : state ≠ .reserved) :
    NoReservation (s.insert key { entry with state := some state }) := by
  refine h.insert ?_
  intro heq
  exact hstate (Option.some.inj heq)

theorem ProtectsStarted.recorded (h : ProtectsStarted s w)
    (hd : Durable sg w) (id : String) (expiry : Int)
    (result : CommandResult) :
    ProtectsStarted (s.recorded id expiry result) w := by
  intro cmd hcmd
  refine (h cmd hcmd).imp_right fun hp => hp.insert ?_ ?_
  · intro heq
    cases heq
  · intro old hold hle
    have hlive := hd.live cmd hcmd
    rw [hold, Option.getD_some, SeenStore.SeenEntry.withResult]
    show _ ≤ if _ then _ else _
    rw [if_neg (by omega)]
    exact hle

theorem NoReservation.recorded {id : String} {expiry : Int}
    {result : CommandResult} (h : NoReservation s) :
    NoReservation (s.recorded id expiry result) := by
  refine h.insert ?_
  intro heq
  cases heq

theorem ProtectsStarted.recovered (h : ProtectsStarted s w) :
    ProtectsStarted s.recovered w :=
  fun cmd hcmd => (h cmd hcmd).imp_right Protects.recovered

theorem ProtectsStarted.pruned (h : ProtectsStarted s w) :
    ProtectsStarted (SeenStore.pruned (wallTime w.clock) s) w := by
  intro cmd hcmd
  rcases h cmd hcmd with he | hp
  · exact Or.inl he
  · rcases lt_or_ge (signedExpiry cmd) (wallTime w.clock) with he | he
    · exact Or.inl he
    · exact Or.inr (hp.pruned he)

theorem ProtectsStarted.reserved {id nonce : String}
    (h : ProtectsStarted s w) (hid : s.lookup id = none)
    (hnonce : s.lookup (nonceKey nonce) = none) (expiry : Int) :
    ProtectsStarted (s.reserved id nonce expiry) w :=
  fun cmd hcmd => (h cmd hcmd).imp_right fun hp => hp.reserved hid hnonce

/-- Only the command's own key holds a reservation after reserving. -/
theorem releasable_reserved {id nonce : String} {expiry : Int}
    (h : NoReservation s) {key : String} {entry : SeenEntry}
    (hlook : (s.reserved id nonce expiry).lookup key = some entry)
    (hrel : SeenStore.releasable key entry = true) : key = id := by
  rw [lookup_reserved] at hlook
  split at hlook
  · next hk =>
      rw [hk, releasable_nonceKey] at hrel
      cases hrel
  · split at hlook
    · next hk => exact hk
    · rw [h key entry hlook] at hrel
      cases hrel

/-- Both keys of a reserved command get its expiry. -/
theorem covered_reserved {id nonce : String} {expiry : Int} {key : String}
    (hkey : key = id ∨ key = nonceKey nonce) :
    Covered (s.reserved id nonce expiry) key expiry := by
  by_cases hn : key = nonceKey nonce
  · exact ⟨{ expiry := expiry }, by rw [lookup_reserved, if_pos hn], le_rfl⟩
  · have hid : key = id := hkey.resolve_right hn
    exact ⟨{ expiry := expiry, nonce := nonce, state := some .reserved },
      by rw [lookup_reserved, if_neg hn, if_pos hid], le_rfl⟩

/-- Overwriting the one reservation leaves none. -/
theorem noReservation_insert {id : String} {entry : SeenEntry}
    (h : ∀ key e, s.lookup key = some e →
      SeenStore.releasable key e = true → key = id)
    (hstate : entry.state ≠ some .reserved) :
    NoReservation (s.insert id entry) := by
  intro key e hlook
  rw [Bool.eq_false_iff]
  intro hrel
  by_cases hk : key = id
  · rw [hk, AList.lookup_insert] at hlook
    obtain rfl := Option.some.inj hlook
    exact hstate (releasable_state hrel).2
  · rw [AList.lookup_insert_ne hk] at hlook
    exact hk (h key e hlook hrel)

/-- A command that passes the replay gate shares no key with a started one. -/
theorem startable_of_gate {cmd : Command} (hd : Durable sg w)
    (hp : ProtectsStarted s w) (hsigned : SignedBy sg cmd)
    (hlive : wallTime w.clock < signedExpiry cmd)
    (hid : s.lookup cmd.id = none)
    (hnonce : s.lookup (nonceKey cmd.nonce) = none) :
    Startable sg w cmd := by
  refine ⟨hsigned, (zeroTime_lt_wallTime w.clock).trans hlive, ?_⟩
  intro c hc
  -- one signer, one key in common: the two expire together
  have hsame : cmd.id = c.id ∨ cmd.nonce = c.nonce → Protects s c := by
    intro hkey
    obtain ⟨e, he, heid, henonce, heexp⟩ := hsigned
    obtain ⟨e', he', heid', henonce', heexp'⟩ := hd.signed c hc
    have hexp : e.expiresAt = e'.expiresAt := by
      refine sg.one_expiry he he' ?_
      rw [heid, heid', henonce, henonce']
      exact hkey
    have hsexp : signedExpiry cmd = signedExpiry c := by
      unfold signedExpiry
      rw [← heexp, ← heexp', hexp]
    rcases hp c hc with hexpired | hprot
    · omega
    · exact hprot
  constructor
  · intro heq
    obtain ⟨entry, hlook, -⟩ := (hsame (Or.inl heq)).id
    rw [← heq, hid] at hlook
    cases hlook
  · intro heq
    obtain ⟨entry, hlook, -⟩ := (hsame (Or.inr heq)).nonce
    rw [← heq, hnonce] at hlook
    cases hlook

/-- Starting a protected command keeps the others protected. -/
theorem ProtectsStarted.start {cmd : Command} (h : ProtectsStarted s w)
    (hcmd : Protects s cmd) : ProtectsStarted s (w.start cmd) := by
  intro c hc
  rcases List.mem_cons.mp hc with rfl | hc
  · exact Or.inr hcmd
  · exact h c hc

theorem Durable.start {cmd : Command} (h : Durable sg w)
    (hcmd : Startable sg w cmd) (hprot : Protects w.disk cmd) :
    Durable sg (w.start cmd) := by
  refine ⟨h.disk.start hprot, ?_, ?_, ?_⟩
  · exact List.pairwise_cons.mpr ⟨hcmd.fresh, h.distinct⟩
  · exact List.forall_mem_cons.mpr ⟨hcmd.signed, h.signed⟩
  · exact List.forall_mem_cons.mpr ⟨hcmd.live, h.live⟩

theorem Durable.replaceFile (h : Durable sg w) (hs : ProtectsStarted s w) :
    Durable sg (w.replaceFile s) := ⟨hs, h.distinct, h.signed, h.live⟩

end Updates

/-! ## The invariant -/

variable {sg : Signer ed25519Verify}

/-- What may be saved guards the phase the save leads to. -/
theorem guards_edit {w : AgentWorld} {a b : Phase} (h : Guarded sg (w, a))
    (he : Edit sg w a b) :
    ProtectsStarted b.map w ∧ Guards sg (w.replaceFile b.map) b := by
  obtain ⟨hd, hg⟩ := h
  cases he with
  | rewrite => exact ⟨hg.1, hg⟩
  | acknowledge hlook hstate hresult hacked =>
      have hp := hg.1.restate hlook .acknowledged nofun
      exact ⟨hp, hp, hg.2.restate nofun⟩
  | requeue hlook hstate hresult =>
      have hp := hg.1.restate hlook .resultPending nofun
      exact ⟨hp, hp, hg.2.restate nofun⟩
  | @reserve s cmd hreceived hsigned hlive hid hnonce =>
      have hp := hg.1.reserved hid hnonce (signedExpiry cmd)
      have hst := startable_of_gate hd hg.1 hsigned hlive hid hnonce
      exact ⟨hp, hp, hst.later rfl, covered_reserved (Or.inl rfl),
        covered_reserved (Or.inr rfl), fun _ _ => releasable_reserved hg.2⟩
  | @arm s cmd entry hlook hstate =>
      obtain ⟨hp, hst, hid, hnonce, honly⟩ := hg
      have hp' := hp.restate hlook .executing nofun
      have hclean : NoReservation
          (s.insert cmd.id { entry with state := some .executing }) :=
        noReservation_insert honly nofun
      have hcover : ∀ key, Covered s key (signedExpiry cmd) → Covered
          (s.insert cmd.id { entry with state := some .executing }) key
          (signedExpiry cmd) := by
        intro key hkey
        refine hkey.insert ?_
        rintro rfl
        obtain ⟨old, hold, hle⟩ := hkey
        rw [hlook] at hold
        obtain rfl := Option.some.inj hold
        exact hle
      refine ⟨hp', hp', hclean, hst.later rfl,
        ⟨hcover _ hid, hcover _ hnonce, ?_⟩, rfl⟩
      intro key e hl hrel
      rw [hclean key e hl] at hrel
      cases hrel

/-- So does what a recorded result leaves. -/
theorem guards_records {w : AgentWorld} {a : Phase} {s : SeenStore}
    (h : Guarded sg (w, a)) (hr : Records w a s) :
    ProtectsStarted s w ∧ NoReservation s := by
  obtain ⟨hd, hg⟩ := h
  cases hr with
  | recover hint =>
      exact ⟨ProtectsStarted.recovered hg, noReservation_recovered⟩
  | refuse hreceived hrecord => exact ⟨hg.1.recorded hd _ _ _, hg.2.recorded⟩
  | abandon hrecord =>
      exact ⟨hg.1.recorded hd _ _ _, noReservation_insert hg.2.2.2.2 nofun⟩
  | record hrecord => exact ⟨hg.1.recorded hd _ _ _, hg.2.recorded⟩

theorem guards_unsaved {w : AgentWorld} {a b : Phase} (hg : Guards sg w a)
    (he : Edit sg w a b) (s : SeenStore) : Guards sg (w.replaceFile s) a := by
  cases he with
  | arm => exact ⟨hg.1, hg.2.1.later rfl, hg.2.2⟩
  | _ => exact hg

theorem guarded_step (c c' : AgentWorld × Phase) (h : Guarded sg c)
    (hs : Protocol.Step sg c c') : Guarded sg c' := by
  cases hs with
  | tick hr => exact h.later ⟨rfl, rfl, hr⟩
  | halt => exact ⟨h.1, trivial⟩
  | load => exact ⟨h.1, h.1.disk⟩
  | undisturbed hint =>
      exact ⟨h.1, h.2, noReservation_of_not_interrupted hint⟩
  | saved he =>
      obtain ⟨hp, hg⟩ := guards_edit h he
      exact ⟨h.1.replaceFile hp, hg⟩
  | unsaved he =>
      have hp := (guards_edit h he).1
      exact ⟨h.1.replaceFile hp, guards_unsaved h.2 he _⟩
  | recorded hr =>
      have hg := guards_records h hr
      exact ⟨h.1.replaceFile hg.1, hg⟩
  | unrecorded hr =>
      exact ⟨h.1.replaceFile (guards_records h hr).1, trivial⟩
  | prune => exact ⟨h.1, h.2.1.pruned, h.2.2.pruned⟩
  | send => exact h.later ⟨rfl, rfl, le_rfl⟩
  | answered => exact h.later ⟨rfl, rfl, le_rfl⟩
  | beat => exact h.later ⟨rfl, rfl, le_rfl⟩
  | receive => exact h.later ⟨rfl, rfl, le_rfl⟩
  | @start w s cmd =>
      obtain ⟨hd, -, -, hst, hprot, hdisk⟩ := h
      have hfile : w.disk = s := hdisk
      exact ⟨hd.start hst (hfile ▸ hprot), trivial⟩
  | @finish w s cmd res =>
      obtain ⟨hd, hp, hclean, hst, hprot, hdisk⟩ := h
      have hfile : w.disk = s := hdisk
      have hd' := hd.start hst (hfile ▸ hprot)
      exact ⟨⟨hd'.disk, hd'.distinct, hd'.signed, hd'.live⟩,
        hp.start hprot, hclean⟩

/-- Before anything was started there is nothing to protect. -/
theorem guarded_init {w : AgentWorld} (h : w.started = []) :
    Guarded sg (w, .down) := by
  have hnone : ∀ cmd, cmd ∉ w.started := by
    rw [h]
    exact fun _ => List.not_mem_nil
  refine ⟨⟨?_, ?_, ?_, ?_⟩, trivial⟩
  · exact fun cmd hcmd => absurd hcmd (hnone cmd)
  · rw [h]
    exact List.Pairwise.nil
  · exact fun cmd hcmd => absurd hcmd (hnone cmd)
  · exact fun cmd hcmd => absurd hcmd (hnone cmd)

/-- In every run of the protocol from a machine that has started nothing. -/
theorem guarded_run {w w' : AgentWorld} {ph : Phase} (h : w.started = [])
    (hr : Protocol.Run sg (w, .down) (w', ph)) : Guarded sg (w', ph) :=
  invariant_of_steps guarded_step (guarded_init h) hr

/-! ## Executions -/

/-- The command carries the id, nonce and expiry time of an envelope. -/
def carries (e : Envelope) (cmd : Command) : Bool :=
  cmd.id == e.commandID && cmd.nonce == e.nonce && cmd.expiresAt == e.expiresAt

/-- Commands with distinct keys carry an envelope at most once. -/
theorem DistinctKeys.filter_carries {cmds : List Command}
    (h : DistinctKeys cmds) (e : Envelope) :
    (cmds.filter (carries e)).length ≤ 1 := by
  have hpair := List.Pairwise.filter (carries e) h
  cases hl : cmds.filter (carries e) with
  | nil => exact Nat.zero_le 1
  | cons a l =>
      cases l with
      | nil => exact le_rfl
      | cons b l =>
          have hid : ∀ c ∈ cmds.filter (carries e), c.id = e.commandID := by
            intro c hc
            have := (List.mem_filter.mp hc).2
            simp only [carries, Bool.and_eq_true, beq_iff_eq] at this
            exact this.1.1
          rw [hl] at hpair hid
          have hne := (List.rel_of_pairwise_cons hpair List.mem_cons_self).1
          exact absurd ((hid a (by simp)).trans (hid b (by simp)).symm) hne

/-- At-most-once execution: in every run of an agent that has started
nothing, whatever its journal file held, every started command carries an
envelope the signer signed, no envelope is started twice, and no two started
commands share a command id or a nonce. -/
theorem agentRun_starts_once {w₀ w : AgentWorld}
    {p : Proc AgentOp (AgentOp.Ans Key) (Session Key)}
    (hstart : w₀.started = []) (hrun : AgentRun sg (w₀, .down) (w, p)) :
    (∀ cmd ∈ w.started, ∃ e, sg.signed e ∧ carries e cmd = true) ∧
      (∀ e, (w.started.filter (carries e)).length ≤ 1) ∧
      w.started.Pairwise fun a b => a.id ≠ b.id ∧ a.nonce ≠ b.nonce := by
  obtain ⟨hd, -⟩ := guarded_run hstart (agentRun_refines hrun).1
  refine ⟨?_, fun e => hd.distinct.filter_carries e, hd.distinct⟩
  intro cmd hcmd
  obtain ⟨e, hsigned, hid, hnonce, hexp⟩ := hd.signed cmd hcmd
  exact ⟨e, hsigned, by simp [carries, hid, hnonce, hexp]⟩

/-! A run in which a command is delivered, started and acknowledged. -/

def verifiesOnly (msg : Bytes) : Unit → Bytes → Bytes → Bool :=
  fun _ m _ => decide (m = msg)

/-- A signer of one message, whose key verifies nothing else. -/
def Signer.ofMessage (msg : Bytes) : Signer (verifiesOnly msg) where
  owns := fun _ => True
  signed := fun e => canonicalCommandBytes e = .ok msg
  unforgeable := by
    intro _ e m sig _ he hv
    rw [verifiesOnly, decide_eq_true_eq] at hv
    exact ⟨e, hv ▸ he, he⟩
  one_expiry := by
    intro e e' he he' _
    have hf := leadingFields_of_bytes he he'
    simp only [leadingFields, List.cons.injEq, Prod.mk.injEq, true_and] at hf
    exact hf.2.2.2.1

/-- A world where everything goes well: the server hands out `cmds`, every
process ends with `res`. -/
def fairScript {Key : Type} (trusts : TrustedKeys Key → Prop)
    (keys : { k : TrustedKeys Key // trusts k }) (agentID : String)
    (cmds : List Command) (res : ExecutionResult) :
    Script (agentWorld trusts) where
  answer := fun w o =>
    match o with
    | .now => (w.clock, w.tick w.clock)
    | .identity => (⟨agentID, keys.1⟩, w)
    | .load => (some w.disk, w)
    | .save entries => (true, w.replaceFile entries)
    | .heartbeat notices => (.ok keys.1 cmds, (w.notify notices).receive cmds)
    | .report id result => (true, (w.send id result).ack id result)
    | .execute cmd => (res, w.finish cmd res)
  covers := fun _ => True
  closed := fun _ _ _ => trivial
  lawful := by
    intro w o _
    cases o with
    | now => exact ⟨le_rfl, rfl⟩
    | identity => exact ⟨keys.2, rfl⟩
    | load => exact ⟨Or.inr rfl, rfl⟩
    | save entries => exact Or.inl rfl
    | heartbeat notices => exact ⟨keys.2, rfl⟩
    | report id result => rfl
    | execute cmd => rfl

/-- A command as the wire carries it. -/
def sampleCommand : Command where
  id := "c-1"
  agentID := "a-1"
  kind := "shell"
  payload := utf8 "\x7b\x7d".toList
  envelopeVersion := commandEnvelopeV2
  schemaVersion := 1
  issuedAt := "1970-01-01T00:00:00Z"
  nonce := "abcdefghijklmnopqrstuv"
  signingKeyID := ""
  signature := "AA=="
  expiresAt := "1970-01-01T00:10:00Z"

def sampleMessage : Bytes :=
  ((canonicalCommandBytes (sampleCommand.envelope "a-1" [])).toOption).getD []

theorem ofMessage_trusts (msg : Bytes) :
    (Signer.ofMessage msg).trusts ⟨(), []⟩ :=
  ⟨trivial, fun _ _ => trivial⟩

/-- One turn of the agent with the sample command handed out. -/
def sampleTurn : AgentWorld × Option (Session Unit) →
    AgentWorld × Option (Session Unit) :=
  (fairScript (Signer.ofMessage sampleMessage).trusts
    ⟨⟨(), []⟩, trivial, nofun⟩ "a-1" [sampleCommand] { exitCode := 0 }).turn
    (agentMachine (verifiesOnly sampleMessage))
    (beat (verifiesOnly sampleMessage))

theorem agentRun_sampleTurn (c : AgentWorld × Option (Session Unit)) :
    AgentRun (Signer.ofMessage sampleMessage) (c.1, .ofOption c.2)
      ((sampleTurn c).1, .ofOption (sampleTurn c).2) :=
  Script.run_turn _ (fun _ => rfl) trivial

def sampleStart : AgentWorld := { disk := ∅, clock := 0 }

theorem agentRun_starts_once_sample :
    (sampleTurn (sampleTurn (sampleTurn (sampleStart, none)))).1.started =
        [sampleCommand] ∧
      ∀ e, ([sampleCommand].filter (carries e)).length ≤ 1 := by
  have hstarted : (sampleTurn (sampleTurn (sampleTurn
      (sampleStart, none)))).1.started = [sampleCommand] := by
    decide +kernel
  have hrun : AgentRun (Signer.ofMessage sampleMessage) (sampleStart, .down)
      ((sampleTurn (sampleTurn (sampleTurn (sampleStart, none)))).1,
        .ofOption (sampleTurn (sampleTurn (sampleTurn (sampleStart, none)))).2) :=
    ((agentRun_sampleTurn (sampleStart, none)).trans
      (agentRun_sampleTurn _)).trans (agentRun_sampleTurn _)
  refine ⟨hstarted, ?_⟩
  rw [← hstarted]
  exact (agentRun_starts_once rfl hrun).2.1

end NodeLink.Proofs
