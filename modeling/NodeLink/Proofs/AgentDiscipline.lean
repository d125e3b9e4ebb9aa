import NodeLink.Agent.Protocol
import NodeLink.Lib.Checks
import NodeLink.Proofs.SignedFields

/-!
# What the agent's programs keep to

A discipline is a property of worlds and phases, with the actions it allows,
that every way of going on with the journal keeps: one rule for each thing
the agent may do next. Each program has a specification: started in a world
and a phase of the discipline, it takes only actions that are allowed, and
ends in a world of the discipline, in the phase its answer tells, and so
does a crash anywhere on the way. So every run of the agent keeps to every
discipline.
-/

namespace NodeLink.Proofs

open Lib Agent Protocol

variable {Key : Type} {ed25519Verify : Key → Bytes → Bytes → Bool}

/-- An action that neither writes the journal nor sends a result. -/
def Aside : AgentOp → Prop
  | .save _ => False
  | .report _ _ => False
  | _ => True

/-- Every acknowledged entry of `s` is in `s'` as well. -/
def KeepsAcked (s s' : SeenStore) : Prop :=
  ∀ key entry, s.lookup key = some entry →
    entry.state = some .acknowledged → s'.lookup key = some entry

/-- A property of worlds and phases, and the actions allowed, with what the
agent's programs need of them. After a save that reports an error the
process goes on only where no acknowledged entry was to change. -/
structure Discipline (sg : Signer ed25519Verify) where
  holds : AgentWorld → Phase → Prop
  allows : AgentWorld → AgentOp → Prop
  aside : ∀ {w o}, Aside o → allows w o
  halt : ∀ {w ph}, holds w ph → holds w .down
  tick : ∀ {w ph reading}, holds w ph → w.clock ≤ reading →
    holds (w.tick reading) ph
  load : ∀ {w}, holds w .down → holds w (.loaded w.disk)
  undisturbed : ∀ {w s}, holds w (.loaded s) → s.interrupted = false →
    holds w (.quiet s)
  saved : ∀ {w a b}, holds w a → Edit sg w a b →
    allows w (.save b.map) ∧ holds (w.replaceFile b.map) b
  resumed : ∀ {w a b}, holds w a → Edit sg w a b → KeepsAcked a.map b.map →
    holds (w.replaceFile b.map) a
  recorded : ∀ {w a s}, holds w a → Records w a s →
    allows w (.save s) ∧ holds (w.replaceFile s) (.quiet s)
  pruned : ∀ {w s}, holds w (.quiet s) →
    allows w (.save (SeenStore.pruned (wallTime w.clock) s)) ∧
      holds (w.replaceFile (SeenStore.pruned (wallTime w.clock) s))
        (.quiet (SeenStore.pruned (wallTime w.clock) s))
  send : ∀ {w s id entry result}, holds w (.quiet s) →
    s.lookup id = some entry → entry.result = some result →
      allows w (.report id result) ∧ holds (w.send id result) (.quiet s)
  answered : ∀ {w ph id result}, holds w ph → (id, result) ∈ w.sent →
    holds (w.ack id result) ph
  beat : ∀ {w s}, holds w (.quiet s) →
    holds (w.notify (pendingResultNotices s)) (.quiet s)
  receive : ∀ {w ph cmds}, holds w ph → holds (w.receive cmds) ph
  start : ∀ {w s cmd}, holds w (.armed s cmd) → holds (w.start cmd) .down
  finish : ∀ {w s cmd res}, holds w (.armed s cmd) →
    holds (w.finish cmd res) (.ran s cmd res)

section Programs

variable {sg : Signer ed25519Verify} (D : Discipline sg)

/-- `p` run in `w` keeps to the discipline and ends in `Q`. -/
abbrev Follows {α : Type} (p : AgentProg Key α) (w : AgentWorld)
    (Q : α → AgentWorld → Prop) : Prop :=
  wp (agentWorld sg.trusts) D.allows (fun w' => D.holds w' .down) Q p w

/-- The process is between commands, and has received nothing more. -/
structure Rests (w : AgentWorld) (s : SeenStore) (w' : AgentWorld) : Prop where
  holds : D.holds w' (.quiet s)
  received : w'.received = w.received

/-- The answer of a program that may stop the process. -/
def Ends (w : AgentWorld) (r : Outcome × SeenStore) (w' : AgentWorld) : Prop :=
  D.holds w' .down ∧ (r.1 ≠ .fatal → Rests D w r.2 w')

variable {D} {w : AgentWorld} {ph : Phase} {s : SeenStore}

theorem Rests.refl (h : D.holds w (.quiet s)) : Rests D w s w := ⟨h, rfl⟩

theorem Rests.trans {w' w'' : AgentWorld} {s' : SeenStore}
    (h : Rests D w s w') (h' : Rests D w' s' w'') : Rests D w s' w'' :=
  ⟨h'.holds, h'.received.trans h.received⟩

theorem Rests.ends {w' : AgentWorld} (out : Outcome) (h : Rests D w s w') :
    Ends D w (out, s) w' := ⟨D.halt h.holds, fun _ => h⟩

/-! ## Actions -/

theorem follows_readClock {Q : Nat → AgentWorld → Prop} (h : D.holds w ph)
    (hQ : ∀ reading, D.holds (w.tick reading) ph →
      Q reading (w.tick reading)) :
    Follows D readClock w Q := by
  refine wp_act.mpr ⟨D.aside trivial, D.halt h, fun w' ht => ht.elim, ?_⟩
  rintro reading w' ⟨hr, rfl⟩
  exact hQ reading (D.tick h hr)

/-- A save: the file is replaced, or an error is reported. -/
theorem follows_saveJournal {after : SeenStore} {Q : Bool → AgentWorld → Prop}
    (h : D.holds w ph) (hallows : D.allows w (.save after))
    (hdown : D.holds (w.replaceFile after) .down)
    (hok : Q true (w.replaceFile after))
    (hfail : ∀ w', w' = w ∨ w' = w.replaceFile after → Q false w') :
    Follows D (saveJournal after) w Q := by
  refine wp_act.mpr ⟨hallows, D.halt h, ?_, ?_⟩
  · rintro w' rfl
    exact hdown
  · intro ok w' hdo
    cases ok with
    | true =>
        rcases hdo with rfl | ⟨hf, -⟩
        · exact hok
        · cases hf
    | false =>
        rcases hdo with rfl | ⟨-, rfl⟩
        · exact hfail _ (Or.inr rfl)
        · exact hfail _ (Or.inl rfl)

theorem follows_mutateAndSave {after : SeenStore}
    {Q : Bool × SeenStore → AgentWorld → Prop} (h : D.holds w ph)
    (hallows : D.allows w (.save after))
    (hdown : D.holds (w.replaceFile after) .down)
    (hok : Q (true, after) (w.replaceFile after))
    (hfail : ∀ w', w' = w ∨ w' = w.replaceFile after → Q (false, s) w') :
    Follows D (SeenStore.mutateAndSave s after) w Q :=
  wp_bind.mpr (follows_saveJournal h hallows hdown hok hfail)

/-- Saving an edit the process goes on after, whatever the save reports. -/
theorem follows_edit {b : Phase} {Q : Bool × SeenStore → AgentWorld → Prop}
    (h : D.holds w ph) (he : Edit sg w ph b) (hkeeps : KeepsAcked ph.map b.map)
    (hok : D.holds (w.replaceFile b.map) b →
      Q (true, b.map) (w.replaceFile b.map))
    (hfail : ∀ w', D.holds w' ph → w'.received = w.received →
      Q (false, s) w') :
    Follows D (SeenStore.mutateAndSave s b.map) w Q := by
  obtain ⟨hallows, hsaved⟩ := D.saved h he
  refine follows_mutateAndSave h hallows (D.halt hsaved) (hok hsaved) ?_
  rintro w' (rfl | rfl)
  · exact hfail _ h rfl
  · exact hfail _ (D.resumed h he hkeeps) rfl

/-- Saving what the process may only go on after once it is durable. -/
theorem follows_durably {after : SeenStore}
    {Q : Bool × SeenStore → AgentWorld → Prop} (h : D.holds w ph)
    (hallows : D.allows w (.save after))
    (hsaved : D.holds (w.replaceFile after) (.quiet after))
    (hok : Q (true, after) (w.replaceFile after))
    (hfail : ∀ w', D.holds w' .down → Q (false, s) w') :
    Follows D (SeenStore.mutateAndSave s after) w Q := by
  refine follows_mutateAndSave h hallows (D.halt hsaved) hok ?_
  rintro w' (rfl | rfl)
  · exact hfail _ (D.halt h)
  · exact hfail _ (D.halt hsaved)

/-- Writing one entry that was not acknowledged. -/
theorem keepsAcked_insert {key : String} {entry : SeenEntry}
    (h : ∀ old, s.lookup key = some old → old.state ≠ some .acknowledged) :
    KeepsAcked s (s.insert key entry) := by
  intro k e hlook hstate
  by_cases hk : k = key
  · subst hk
    exact absurd hstate (h e hlook)
  · rw [AList.lookup_insert_ne hk, hlook]

/-! ## Delivering results -/

/-- The outbox: the results that are pending, but for nonce keys. -/
theorem mem_pendingResults_iff {id : String} {r : CommandResult} :
    (id, r) ∈ s.pendingResults ↔
    ∃ entry, s.lookup id = some entry ∧ hasNoncePrefix id = false ∧
      entry.state = some .resultPending ∧ entry.result = some r := by
  rw [SeenStore.pendingResults, List.mem_insertionSort, List.mem_filterMap]
  constructor
  · rintro ⟨⟨key, entry⟩, hmem, hpend⟩
    rw [SeenStore.pendingOf] at hpend
    split at hpend
    · cases hpend
    · next hkeep =>
        obtain ⟨r', hr, heq⟩ := Option.map_eq_some_iff.mp hpend
        obtain ⟨rfl, rfl⟩ := Prod.mk.inj heq
        simp only [Bool.or_eq_true, bne_iff_ne, not_or, Bool.not_eq_true,
          not_not] at hkeep
        exact ⟨entry, AList.mem_lookup_iff.mpr hmem, hkeep.1, hkeep.2, hr⟩
  · rintro ⟨entry, hlook, hid, hstate, hres⟩
    refine ⟨⟨id, entry⟩, AList.mem_lookup_iff.mp hlook, ?_⟩
    rw [SeenStore.pendingOf, if_neg (by simp [hid, hstate]), hres]
    rfl

/-- The map holds each of the results for its command id. -/
def Holds (s : SeenStore) (l : List (String × CommandResult)) : Prop :=
  ∀ p ∈ l, ∃ entry, s.lookup p.1 = some entry ∧ entry.result = some p.2

/-- Changing the state of an entry leaves every result in place. -/
theorem Holds.restate {l : List (String × CommandResult)} {id : String}
    {entry : SeenEntry} (h : Holds s l) (hlook : s.lookup id = some entry)
    (state : ExecutionState) :
    Holds (s.insert id { entry with state := some state }) l := by
  intro p hp
  obtain ⟨old, hold, hres⟩ := h p hp
  by_cases hid : p.1 = id
  · rw [hid, hlook] at hold
    obtain rfl := Option.some.inj hold
    exact ⟨{ entry with state := some state },
      by rw [hid, AList.lookup_insert], hres⟩
  · exact ⟨old, by rw [AList.lookup_insert_ne hid, hold], hres⟩

/-- Acknowledging a result the server has answered for. -/
theorem follows_acknowledge {id : String} {result : CommandResult}
    {l : List (String × CommandResult)} (h : D.holds w (.quiet s))
    (hacked : (id, result) ∈ w.acked) (hholds : Holds s ((id, result) :: l)) :
    Follows D (s.acknowledge id) w
      fun r w' => Rests D w r.2 w' ∧ Holds r.2 l := by
  have hrest : Holds s l := fun p hp => hholds p (List.mem_cons_of_mem _ hp)
  obtain ⟨entry, hlook, hresult⟩ := hholds (id, result) List.mem_cons_self
  unfold SeenStore.acknowledge
  rw [hlook]
  show Follows D (if _ then _ else _) w _
  split
  · exact ⟨.refl h, hrest⟩
  · next hst =>
      rw [not_or, not_not] at hst
      refine follows_edit h (.acknowledge hlook hst.1 hresult hacked)
        (keepsAcked_insert ?_) ?_ ?_
      · intro old hold hack
        obtain rfl := Option.some.inj (hlook.symm.trans hold)
        rw [hst.1] at hack
        cases hack
      · intro hr
        exact ⟨⟨hr, rfl⟩, hrest.restate hlook _⟩
      · intro w' hr hrec
        exact ⟨⟨hr, hrec⟩, hrest⟩

/-- Reporting a result the map holds. -/
theorem follows_reportResult {id : String} {result : CommandResult}
    {entry : SeenEntry} (h : D.holds w (.quiet s))
    (hlook : s.lookup id = some entry) (hresult : entry.result = some result) :
    Follows D (reportResult id result) w fun ok w' =>
      Rests D w s w' ∧ (ok = true → (id, result) ∈ w'.acked) := by
  obtain ⟨hallows, hsend⟩ := D.send h hlook hresult
  refine wp_act.mpr ⟨hallows, D.halt h, ?_, ?_⟩
  · rintro w' rfl
    exact D.halt hsend
  · intro ok w' hdo
    obtain rfl : w' = _ := hdo
    cases ok with
    | true => exact ⟨⟨D.answered hsend List.mem_cons_self, rfl⟩,
        fun _ => List.mem_cons_self⟩
    | false => exact ⟨⟨hsend, rfl⟩, nofun⟩

theorem follows_flushLoop {l : List (String × CommandResult)} {out : Outcome}
    (h : D.holds w (.quiet s)) (hl : Holds s l) :
    Follows D (flushLoop l s out) w fun r w' => Rests D w r.2 w' := by
  induction l generalizing w s out with
  | nil => exact .refl h
  | cons p l ih =>
      obtain ⟨id, result⟩ := p
      obtain ⟨entry, hlook, hresult⟩ := hl (id, result) List.mem_cons_self
      refine wp_seq (follows_reportResult h hlook hresult) ?_
      rintro reported w₁ ⟨h₁, hacked⟩
      show Follows D (if _ then _ else _) w₁ _
      split
      · next hrep =>
          refine wp_seq (follows_acknowledge h₁.holds (hacked hrep) hl) ?_
          rintro ⟨ok, s₂⟩ w₂ ⟨h₂, hl₂⟩
          show Follows D (if _ then _ else _) w₂ _
          split
          · exact wp_mono (ih h₂.holds hl₂) fun r w₃ h₃ =>
              (h₁.trans h₂).trans h₃
          · exact h₁.trans h₂
      · have hrest : Holds s l := fun p hp => hl p (List.mem_cons_of_mem _ hp)
        exact wp_mono (ih h₁.holds hrest) fun r w₂ h₂ => h₁.trans h₂

theorem follows_flushPendingResults (h : D.holds w (.quiet s)) :
    Follows D (flushPendingResults s) w
      fun r w' => Rests D w r.2 w' :=
  follows_flushLoop h fun _ hp => by
    obtain ⟨entry, hlook, -, -, hres⟩ := mem_pendingResults_iff.mp hp
    exact ⟨entry, hlook, hres⟩

/-- As a program that may stop the process. -/
theorem ends_flushPendingResults {w' : AgentWorld}
    (h : Rests D w s w') :
    Follows D (flushPendingResults s) w' (Ends D w) :=
  wp_mono (follows_flushPendingResults h.holds) fun r _ h' =>
    (h.trans h').ends r.1

/-! ## Recording results -/

theorem zeroTime_lt_wallTime (reading : Nat) : zeroTime < wallTime reading := by
  unfold zeroTime wallTime second
  omega

/-- The expiry an entry without one gets is not the zero time. -/
theorem follows_resultExpiry {entry : SeenEntry} {expiry : Int}
    (h : D.holds w ph) (hexp : expiry = zeroTime ∨ zeroTime < expiry) :
    Follows D (SeenStore.resultExpiry entry expiry) w fun t w' =>
      (D.holds w' ph ∧ w'.received = w.received) ∧
        (entry.expiry ≠ zeroTime ∨ zeroTime < t) := by
  unfold SeenStore.resultExpiry
  split
  · refine wp_bind.mpr (follows_readClock h ?_)
    intro reading hr
    refine ⟨⟨hr, rfl⟩, Or.inr ?_⟩
    have := zeroTime_lt_wallTime reading
    unfold unverifiedResultTTL second
    omega
  · next hz =>
      refine ⟨⟨h, rfl⟩, ?_⟩
      rcases hexp with he | he
      · exact Or.inl fun hentry => hz ⟨hentry, he⟩
      · exact Or.inr he

/-- How recording a result ends: between commands once the result is
durable, where it began when there is a result already, else at a stop. -/
structure Stores (D : Discipline sg) (w : AgentWorld) (ph : Phase)
    (s : SeenStore) (id : String) (r : SeenStore.StoreOutcome × SeenStore)
    (w' : AgentWorld) : Prop where
  halts : D.holds w' .down
  stored : r.1 = .stored → Rests D w r.2 w'
  kept : r.1 = .alreadyStored → D.holds w' ph ∧ r.2 = s ∧
    w'.received = w.received ∧
    SeenStore.SeenEntry.settled ((s.lookup id).getD SeenEntry.zero) = true

theorem follows_storeResult {id : String} {expiry : Int}
    {result : CommandResult} (h : D.holds w ph)
    (hexp : expiry = zeroTime ∨ zeroTime < expiry)
    (hr : ∀ t w', w'.received = w.received → Recordable s id t →
      Records w' ph (s.recorded id t result)) :
    Follows D (s.storeResult id expiry result) w
      (Stores D w ph s id) := by
  unfold SeenStore.storeResult
  by_cases hset : SeenStore.SeenEntry.settled
      ((s.lookup id).getD SeenEntry.zero) = true
  · simp only [hset, if_true]
    exact ⟨D.halt h, nofun, fun _ => ⟨h, rfl, rfl, hset⟩⟩
  · simp only [hset]
    rw [Bool.not_eq_true] at hset
    refine wp_seq (follows_resultExpiry h hexp) ?_
    rintro t w₁ ⟨⟨h₁, hrec₁⟩, ht⟩
    obtain ⟨hallows, h₂⟩ := D.recorded h₁ (hr t w₁ hrec₁ ⟨hset, ht⟩)
    refine wp_bind.mpr (follows_durably h₁ hallows h₂ ?_ ?_)
    · exact ⟨D.halt h₂, fun _ => ⟨h₂, hrec₁⟩, nofun⟩
    · intro w₂ h₂
      exact ⟨h₂, nofun, nofun⟩

/-- Recording a result and delivering what is pending. A phase other than
the one between commands must not have a result to keep already. -/
theorem ends_queueResult {id : String} {expiry : Int}
    {result : CommandResult} (h : D.holds w ph)
    (hexp : expiry = zeroTime ∨ zeroTime < expiry)
    (hset : SeenStore.SeenEntry.settled
      ((s.lookup id).getD SeenEntry.zero) = true → ph = .quiet s)
    (hr : ∀ t w', w'.received = w.received → Recordable s id t →
      Records w' ph (s.recorded id t result)) :
    Follows D (queueResult s id expiry result) w (Ends D w) := by
  refine wp_seq (follows_storeResult h hexp hr) ?_
  rintro ⟨outcome, s₁⟩ w₁ hst
  cases outcome with
  | stored => exact ends_flushPendingResults (hst.stored rfl)
  | alreadyStored =>
      obtain ⟨h₁, rfl, hrec, hsettled⟩ := hst.kept rfl
      rw [hset hsettled] at h₁
      exact ends_flushPendingResults ⟨h₁, hrec⟩
  | failed => exact ⟨hst.halts, fun hf => absurd rfl hf⟩

/-! ## The command gate -/

theorem ends_refuse {cmd : Command} {expiry : Int} {reason : String}
    (h : D.holds w (.quiet s))
    (hexp : expiry = zeroTime ∨ zeroTime < expiry)
    (hcmd : cmd ∈ w.received) :
    Follows D (refuse s cmd expiry reason) w (Ends D w) :=
  ends_queueResult h hexp (fun _ => rfl) fun _ _ hrec hrecord =>
    .refuse (hrec ▸ hcmd) hrecord

/-- Making an error fatal. -/
theorem ends_refuseOrStop {cmd : Command} {expiry : Int} {reason : String}
    (h : Follows D (refuse s cmd expiry reason) w (Ends D w)) :
    Follows D (refuseOrStop s cmd expiry reason) w (Ends D w) := by
  refine wp_seq h ?_
  rintro ⟨out, s₁⟩ w₁ ⟨hdown, hrests⟩
  refine ⟨hdown, fun hf => hrests ?_⟩
  rintro rfl
  exact hf rfl

/-- What a reservation leaves for its command id records no result. -/
theorem lookup_reserved_self (id nonce : String) (expiry : Int) :
    ∃ entry, (s.reserved id nonce expiry).lookup id = some entry ∧
      SeenStore.SeenEntry.settled entry = false := by
  unfold SeenStore.reserved
  by_cases hid : id = nonceKey nonce
  · exact ⟨{ expiry := expiry },
      by rw [← hid, AList.lookup_insert], rfl⟩
  · exact ⟨{ expiry := expiry, nonce := nonce, state := some .reserved },
      by rw [AList.lookup_insert_ne hid, AList.lookup_insert], rfl⟩

theorem ends_abandon {cmd : Command} {expiry : Int} {reason : String}
    {nonce : String} {t : Int}
    (h : D.holds w (.reserved (s.reserved cmd.id nonce t) cmd))
    (hexp : zeroTime < expiry) :
    Follows D (refuse (s.reserved cmd.id nonce t) cmd expiry reason) w
      (Ends D w) := by
  refine ends_queueResult h (Or.inr hexp) ?_ fun _ _ _ hr => .abandon hr
  intro hset
  obtain ⟨entry, hlook, hns⟩ := lookup_reserved_self (s := s) cmd.id nonce t
  rw [hlook, Option.getD_some, hns] at hset
  cases hset

/-- A process may start once its execution is durable. -/
theorem follows_startProcess {cmd : Command}
    (h : D.holds w (.armed s cmd)) :
    Follows D (startProcess cmd) w fun res w' =>
      D.holds w' (.ran s cmd res) ∧ w'.received = w.received := by
  refine wp_act.mpr ⟨D.aside trivial, D.halt h, ?_, ?_⟩
  · rintro w' rfl
    exact D.start h
  · rintro res w' rfl
    exact ⟨D.finish h, rfl⟩

theorem ends_executeCommand {cmd : Command} {expiry : Int}
    (h : D.holds w (.armed s cmd)) (hexp : zeroTime < expiry) :
    Follows D (executeCommand s cmd expiry) w (Ends D w) := by
  refine wp_seq (follows_startProcess h) ?_
  rintro res w₁ ⟨h₁, hrec₁⟩
  refine wp_bind.mpr (follows_readClock h₁ ?_)
  intro reading h₂
  refine wp_seq (follows_storeResult h₂ (Or.inr hexp)
    fun _ _ _ hrecord => .record hrecord) ?_
  rintro ⟨outcome, s₃⟩ w₃ hst
  show Follows D (if _ then _ else _) w₃ _
  split
  · next ho =>
      have hrests := hst.stored ho
      exact ends_flushPendingResults
        ⟨hrests.holds, hrests.received.trans hrec₁⟩
  · exact ⟨hst.halts, fun hf => absurd rfl hf⟩

/-- How the transition before a process start ends. -/
structure Marks (D : Discipline sg) (w : AgentWorld) (cmd : Command)
    (s : SeenStore) (r : Bool × SeenStore) (w' : AgentWorld) :
    Prop where
  received : w'.received = w.received
  marked : r.1 = true → D.holds w' (.armed r.2 cmd)
  kept : r.1 = false → r.2 = s ∧ D.holds w' (.reserved s cmd)

theorem follows_markExecuting {cmd : Command}
    (h : D.holds w (.reserved s cmd)) :
    Follows D (s.markExecuting cmd.id) w (Marks D w cmd s) := by
  unfold SeenStore.markExecuting
  split
  · exact ⟨rfl, nofun, fun _ => ⟨rfl, h⟩⟩
  · next entry hlook =>
      split
      · exact ⟨rfl, nofun, fun _ => ⟨rfl, h⟩⟩
      · next hst =>
          rw [not_not] at hst
          refine follows_edit h (.arm hlook hst) (keepsAcked_insert ?_) ?_ ?_
          · intro old hold hack
            obtain rfl := Option.some.inj (hlook.symm.trans hold)
            rw [hst] at hack
            cases hack
          · intro hr
            exact ⟨rfl, fun _ => hr, nofun⟩
          · intro w' hr hrec
            exact ⟨hrec, nofun, fun _ => ⟨rfl, hr⟩⟩

/-- How reserving a command's replay keys ends. -/
structure Reserves (D : Discipline sg) (w : AgentWorld) (cmd : Command)
    (s : SeenStore) (r : Bool × SeenStore) (w' : AgentWorld) :
    Prop where
  received : w'.received = w.received
  reserved : r.1 = true →
    r.2 = s.reserved cmd.id cmd.nonce (signedExpiry cmd) ∧
      D.holds w' (.reserved r.2 cmd)
  kept : r.1 = false → r.2 = s ∧ D.holds w' (.quiet s)

/-- Reserving needs both keys to be free. -/
theorem keepsAcked_reserved {id nonce : String} {expiry : Int}
    (hid : s.lookup id = none) (hnonce : s.lookup (nonceKey nonce) = none) :
    KeepsAcked s (s.reserved id nonce expiry) := by
  intro k e hlook _
  have hk : k ≠ id := by
    intro heq
    rw [heq, hid] at hlook
    cases hlook
  have hk' : k ≠ nonceKey nonce := by
    intro heq
    rw [heq, hnonce] at hlook
    cases hlook
  rw [SeenStore.reserved, AList.lookup_insert_ne hk', AList.lookup_insert_ne hk,
    hlook]

theorem follows_reserveCommand {cmd : Command}
    (h : D.holds w (.quiet s)) (hcmd : cmd ∈ w.received)
    (hsigned : SignedBy sg cmd)
    (hlive : wallTime w.clock < signedExpiry cmd) :
    Follows D (s.reserveCommand cmd.id cmd.nonce (signedExpiry cmd)) w
      (Reserves D w cmd s) := by
  unfold SeenStore.reserveCommand
  split
  · exact ⟨rfl, nofun, fun _ => ⟨rfl, h⟩⟩
  · next hid =>
      split
      · exact ⟨rfl, nofun, fun _ => ⟨rfl, h⟩⟩
      · next hnonce =>
          rw [SeenStore.has, Option.not_isSome_iff_eq_none] at hid
          rw [SeenStore.hasNonce, Option.not_isSome_iff_eq_none] at hnonce
          refine follows_edit h (.reserve hcmd hsigned hlive hid hnonce)
            (keepsAcked_reserved hid hnonce) ?_ ?_
          · intro hr
            exact ⟨rfl, fun _ => ⟨rfl, hr⟩, nofun⟩
          · intro w' hr hrec
            exact ⟨hrec, nofun, fun _ => ⟨rfl, hr⟩⟩

theorem Ends.after {w₁ w' : AgentWorld} {r : Outcome × SeenStore}
    (h : Ends D w₁ r w') (hrec : w₁.received = w.received) :
    Ends D w r w' :=
  ⟨h.1, fun hf => ⟨(h.2 hf).holds, (h.2 hf).received.trans hrec⟩⟩

theorem follows_requeueAcknowledged {id : String}
    (h : D.holds w (.quiet s)) :
    Follows D (s.requeueAcknowledged id) w fun r w' =>
      D.holds w' .down ∧ (r.1 = true → Rests D w r.2 w') := by
  unfold SeenStore.requeueAcknowledged
  split
  · exact ⟨D.halt h, fun _ => .refl h⟩
  · next entry hlook =>
      split
      · exact ⟨D.halt h, fun _ => .refl h⟩
      · next hst =>
          rw [not_or, not_not] at hst
          obtain ⟨result, hresult⟩ := Option.ne_none_iff_exists'.mp hst.2
          obtain ⟨hallows, hsaved⟩ := D.saved h (.requeue hlook hst.1 hresult)
          refine follows_durably h hallows hsaved ?_ ?_
          · exact ⟨D.halt hsaved, fun _ => ⟨hsaved, rfl⟩⟩
          · intro w' hw
            exact ⟨hw, nofun⟩

theorem ends_acceptCommand {cmd : Command} (h : D.holds w (.quiet s))
    (hcmd : cmd ∈ w.received) (hsigned : SignedBy sg cmd)
    (hlive : wallTime w.clock < signedExpiry cmd) :
    Follows D (acceptCommand s cmd (signedExpiry cmd)) w
      (Ends D w) := by
  have hexp : zeroTime < signedExpiry cmd :=
    (zeroTime_lt_wallTime w.clock).trans hlive
  unfold acceptCommand
  split
  · refine wp_seq (follows_requeueAcknowledged h) ?_
    rintro ⟨ok, s₁⟩ w₁ ⟨hdown, h₁⟩
    show Follows D (if _ then _ else _) w₁ _
    split
    · next hok => exact ends_flushPendingResults (h₁ hok)
    · exact ⟨hdown, fun hf => absurd rfl hf⟩
  · split
    · exact ends_refuse h (Or.inr hexp) hcmd
    · refine wp_seq (follows_reserveCommand h hcmd hsigned hlive) ?_
      rintro ⟨ok, s₁⟩ w₁ h₁
      cases ok with
      | false =>
          obtain ⟨rfl, hr⟩ := h₁.kept rfl
          exact wp_mono (ends_refuseOrStop (ends_refuse hr (Or.inr hexp)
            (h₁.received ▸ hcmd))) fun r w₂ hends => hends.after h₁.received
      | true =>
          obtain ⟨rfl, hr⟩ := h₁.reserved rfl
          refine wp_seq (follows_markExecuting hr) ?_
          rintro ⟨ok, s₂⟩ w₂ h₂
          have hrec := h₂.received.trans h₁.received
          cases ok with
          | false =>
              obtain ⟨rfl, hr₂⟩ := h₂.kept rfl
              exact wp_mono (ends_refuseOrStop (ends_abandon hr₂ hexp))
                fun r w₃ hends => hends.after hrec
          | true =>
              exact wp_mono (ends_executeCommand (h₂.marked rfl) hexp)
                fun r w₃ hends => hends.after hrec

/-- A command that passes the signature check is one the signer signed. -/
theorem signedBy_of_accepted {sess : Session Key} {cmd : Command}
    (hkeys : sg.trusts sess.keys)
    (h : signatureRefusal ed25519Verify sess cmd = none) : SignedBy sg cmd := by
  have key : ∀ {pub ids}, sg.owns pub →
      verify ed25519Verify pub (cmd.envelope sess.agentID ids) cmd.signature =
        .ok () → SignedBy sg cmd := by
    intro pub ids howns hv
    obtain ⟨msg, sig, hmsg, -, hsig⟩ := verify_ok ed25519Verify hv
    obtain ⟨e, hsigned, he⟩ := sg.unforgeable howns hmsg hsig
    have hf := leadingFields_of_bytes he hmsg
    simp only [leadingFields, List.cons.injEq, Prod.mk.injEq, true_and,
      and_true] at hf
    obtain ⟨-, hid, -, hexp, -, -, hnonce⟩ := hf
    exact ⟨e, hsigned, hid, hnonce, hexp⟩
  unfold signatureRefusal at h
  split at h
  · split at h
    · cases h
    · next pub hpub =>
        obtain ⟨l₁, l₂, hl, -⟩ := List.lookup_eq_some_iff.mp hpub
        have howns := hkeys.2 (cmd.signingKeyID, pub) (by simp [hl])
        split at h
        · next hv => exact key howns hv
        · cases h
  · split at h
    · next hv => exact key hkeys.1 hv
    · cases h

/-- The window check answers the signed expiry, which has not passed. -/
theorem validateCommandWindow_ok {cmd : Command} {now expiry : Int}
    (h : validateCommandWindow cmd.issuedAt cmd.expiresAt now = .ok expiry) :
    expiry = signedExpiry cmd ∧ now < expiry := by
  rw [validateCommandWindow, bind_eq_ok] at h
  obtain ⟨⟨issued, expires⟩, hpair, h⟩ := h
  rw [require_bind_eq_ok, require_bind_eq_ok] at h
  obtain ⟨-, hlive, h⟩ := h
  injection h with h
  rw [validateCommandTimePair, bind_eq_ok] at hpair
  obtain ⟨st, -, hpair⟩ := hpair
  rw [bind_eq_ok] at hpair
  obtain ⟨st', hexp, hpair⟩ := hpair
  rw [require_bind_eq_ok, require_bind_eq_ok] at hpair
  injection hpair.2.2 with hpair
  have hst := congrArg Prod.snd hpair
  subst h
  refine ⟨?_, hlive⟩
  rw [signedExpiry, hexp]
  exact hst.symm

theorem ends_processCommand {sess : Session Key} {cmd : Command}
    (h : D.holds w (.quiet sess.seen)) (hkeys : sg.trusts sess.keys)
    (hcmd : cmd ∈ w.received) :
    Follows D (processCommand ed25519Verify sess cmd) w
      (Ends D w) := by
  unfold processCommand
  split
  · exact ends_refuse h (Or.inl rfl) hcmd
  · split
    · exact ends_refuse h (Or.inl rfl) hcmd
    · next hsig =>
        refine wp_bind.mpr (follows_readClock h ?_)
        intro reading hr
        split
        · exact wp_mono (ends_refuse hr (Or.inl rfl) hcmd)
            fun r w' hends => hends.after rfl
        · next expiry hwin =>
            obtain ⟨rfl, hlive⟩ := validateCommandWindow_ok hwin
            exact wp_mono (ends_acceptCommand hr hcmd
              (signedBy_of_accepted hkeys hsig) hlive)
              fun r w' hends => hends.after rfl

/-! ## Check-ins -/

/-- How a batch ends: stopped at once, or with the session it leaves. -/
structure Drains (D : Discipline sg) (w : AgentWorld)
    (sess : Session Key) (r : Option Outcome × Session Key)
    (w' : AgentWorld) : Prop where
  halts : D.holds w' .down
  keys : r.2.keys = sess.keys
  rests : r.1 ≠ none → D.holds w' (.quiet r.2.seen)

theorem follows_processCommands {sess : Session Key} {cmds : List Command}
    {out : Outcome} (h : D.holds w (.quiet sess.seen))
    (hkeys : sg.trusts sess.keys) (hcmds : ∀ cmd ∈ cmds, cmd ∈ w.received) :
    Follows D (processCommands ed25519Verify sess cmds out) w
      (Drains D w sess) := by
  induction cmds generalizing w sess out with
  | nil => exact ⟨D.halt h, rfl, fun _ => h⟩
  | cons cmd cmds ih =>
      refine wp_seq (ends_processCommand h hkeys
        (hcmds cmd List.mem_cons_self)) ?_
      rintro ⟨result, s₁⟩ w₁ hends
      show Follows D (if _ then _ else _) w₁ _
      split
      · exact ⟨hends.1, rfl, fun hf => absurd rfl hf⟩
      · next hres =>
          have hrests := hends.2 hres
          refine wp_mono (ih hrests.holds hkeys ?_) ?_
          · intro c hc
            rw [hrests.received]
            exact hcmds c (List.mem_cons_of_mem _ hc)
          · intro r w₂ hd
            exact ⟨hd.halts, hd.keys, hd.rests⟩

/-- How a beat ends: with keys the agent may trust, and, unless the process
stops, between commands. -/
structure Beats (D : Discipline sg) (r : Outcome × Session Key)
    (w' : AgentWorld) : Prop where
  halts : D.holds w' .down
  keys : sg.trusts r.2.keys
  rests : r.1 ≠ .fatal → D.holds w' (.quiet r.2.seen)

theorem beats_runBatch {sess : Session Key} {cmds : List Command}
    {out : Outcome} (h : D.holds w (.quiet sess.seen))
    (hkeys : sg.trusts sess.keys) (hcmds : ∀ cmd ∈ cmds, cmd ∈ w.received) :
    Follows D (runBatch ed25519Verify sess cmds out) w
      (Beats D) := by
  refine wp_seq (follows_processCommands h hkeys hcmds) ?_
  rintro ⟨drained, sess₁⟩ w₁ hd
  have hkeys₁ : sg.trusts sess₁.keys := by
    have := hd.keys
    rw [show sess₁.keys = sess.keys from this]
    exact hkeys
  cases drained with
  | none => exact ⟨hd.halts, hkeys₁, fun hf => absurd rfl hf⟩
  | some out₁ =>
      refine wp_seq (follows_flushPendingResults (hd.rests nofun)) ?_
      rintro ⟨flushed, s₂⟩ w₂ h₂
      exact ⟨D.halt h₂.holds, hkeys₁, fun _ => h₂.holds⟩

/-- Nothing to prune leaves the map as it is. -/
theorem pruned_eq_self {now : Int}
    (h : s.entries.any (fun e => SeenStore.prunable now e.2) = false) :
    SeenStore.pruned now s = s := by
  refine AList.ext (List.filter_eq_self.mpr fun e he => ?_)
  rw [List.any_eq_false] at h
  simpa using h e he

/-- Pruning leaves the process between commands, or stops it. -/
theorem follows_pruneAndSave (h : D.holds w (.quiet s)) :
    Follows D (pruneAndSave s) w fun r w' =>
      D.holds w' .down ∧ (r.1 = true → D.holds w' (.quiet r.2)) := by
  refine wp_bind.mpr (follows_readClock h ?_)
  intro reading hr
  show Follows D (if _ then _ else _) _ _
  split
  · obtain ⟨hallows, hsaved⟩ := D.pruned hr
    refine wp_bind.mpr (follows_saveJournal hr hallows (D.halt hsaved) ?_ ?_)
    · exact ⟨D.halt hsaved, fun _ => hsaved⟩
    · rintro w' (rfl | rfl)
      · exact ⟨D.halt hr, nofun⟩
      · exact ⟨D.halt hsaved, nofun⟩
  · next hsame =>
      rw [Bool.not_eq_true] at hsame
      refine ⟨D.halt hr, fun _ => ?_⟩
      show D.holds _ (.quiet (SeenStore.pruned _ s))
      rw [pruned_eq_self hsame]
      exact hr

/-- A heartbeat: the commands it hands out count as received. -/
theorem follows_sendHeartbeat (h : D.holds w (.quiet s)) :
    Follows D (sendHeartbeat (pendingResultNotices s)) w fun reply w' =>
      D.holds w' (.quiet s) ∧ ∀ keys cmds, reply = .ok keys cmds →
        sg.trusts keys ∧ ∀ cmd ∈ cmds, cmd ∈ w'.received := by
  have hbeat := D.beat h
  refine wp_act.mpr ⟨D.aside trivial, D.halt h, ?_, ?_⟩
  · rintro w' rfl
    exact D.halt hbeat
  · intro reply w' hdo
    cases reply with
    | failed =>
        obtain rfl : w' = _ := hdo
        exact ⟨hbeat, nofun⟩
    | quarantined =>
        obtain rfl : w' = _ := hdo
        exact ⟨hbeat, nofun⟩
    | ok keys cmds =>
        obtain ⟨hkeys, rfl⟩ := hdo
        refine ⟨D.receive hbeat, ?_⟩
        rintro keys' cmds' ⟨⟩
        exact ⟨hkeys, fun cmd hcmd => List.mem_append_left _ hcmd⟩

theorem beats_checkIn {sess : Session Key}
    (h : D.holds w (.quiet sess.seen)) (hkeys : sg.trusts sess.keys) :
    Follows D (checkIn ed25519Verify sess) w (Beats D) := by
  refine wp_seq (follows_pruneAndSave h) ?_
  rintro ⟨ok, s₁⟩ w₁ ⟨hdown, h₁⟩
  show Follows D (if _ then _ else _) w₁ _
  split
  · next hok =>
      refine wp_seq (follows_sendHeartbeat (h₁ hok)) ?_
      rintro reply w₂ ⟨h₂, hreply⟩
      cases reply with
      | failed => exact ⟨D.halt h₂, hkeys, fun _ => h₂⟩
      | quarantined => exact ⟨D.halt h₂, hkeys, fun _ => h₂⟩
      | ok keys cmds =>
          obtain ⟨hkeys₂, hcmds⟩ := hreply keys cmds rfl
          refine wp_seq (follows_flushPendingResults h₂) ?_
          rintro ⟨out, s₃⟩ w₃ h₃
          show Follows D (if _ then _ else _) w₃ _
          split
          · exact ⟨D.halt h₃.holds, hkeys₂, fun _ => h₃.holds⟩
          · exact beats_runBatch h₃.holds hkeys₂ fun cmd hcmd =>
              h₃.received ▸ hcmds cmd hcmd
  · exact ⟨hdown, hkeys, fun hf => absurd rfl hf⟩

/-! ## The machine -/

/-- What holds of an idle agent. -/
def Idles (D : Discipline sg) (sess : Session Key) (w : AgentWorld) : Prop :=
  D.holds w (.quiet sess.seen) ∧ sg.trusts sess.keys

theorem follows_beat {sess : Session Key} (h : Idles D sess w) :
    Follows D (beat ed25519Verify sess) w
      (Settled (fun w' => D.holds w' .down) (Idles D)) := by
  refine wp_seq (beats_checkIn h.1 h.2) ?_
  rintro ⟨out, sess₁⟩ w₁ hb
  show Settled _ _ (if _ then _ else _) w₁
  split
  · exact hb.halts
  · next hf => exact ⟨hb.rests hf, hb.keys⟩

theorem follows_recoverInterrupted (h : D.holds w (.loaded s)) :
    Follows D s.recoverInterrupted w fun r w' =>
      D.holds w' .down ∧ (r.1 = true → D.holds w' (.quiet r.2)) := by
  unfold SeenStore.recoverInterrupted
  split
  · next hint =>
      obtain ⟨hallows, hr⟩ := D.recorded h (.recover hint)
      refine follows_durably h hallows hr ⟨D.halt hr, fun _ => hr⟩ ?_
      intro w' hw
      exact ⟨hw, nofun⟩
  · next hint =>
      rw [Bool.not_eq_true] at hint
      exact ⟨D.halt h, fun _ => D.undisturbed h hint⟩

theorem follows_loadSession (h : D.holds w .down) :
    Follows D loadSession w
      (Settled (fun w' => D.holds w' .down) (Idles D)) := by
  refine wp_bind.mpr (wp_act.mpr
    ⟨D.aside trivial, h, fun w' ht => ht.elim, ?_⟩)
  rintro identity w' ⟨hkeys, rfl⟩
  refine wp_bind.mpr (wp_act.mpr
    ⟨D.aside trivial, h, fun w' ht => ht.elim, ?_⟩)
  rintro loaded w' ⟨hload, rfl⟩
  rcases hload with rfl | rfl
  · exact h
  · refine wp_seq (follows_recoverInterrupted (D.load h)) ?_
    rintro ⟨ok, s₁⟩ w₁ ⟨hdown, hquiet⟩
    cases ok with
    | false => exact hdown
    | true =>
        refine wp_seq (follows_pruneAndSave (hquiet rfl)) ?_
        rintro ⟨ok, s₂⟩ w₂ ⟨hstop, h₂⟩
        cases ok with
        | false => exact hstop
        | true => exact ⟨h₂ rfl, hkeys⟩

theorem idles_halt (sess : Session Key) (w : AgentWorld)
    (h : Idles D sess w) : D.holds w .down := D.halt h.1

end Programs

/-- Every run of the agent keeps to the discipline. -/
theorem disciplined_run {sg : Signer ed25519Verify} {D : Discipline sg}
    {w₀ : AgentWorld} {c : AgentWorld × Proc AgentOp (AgentOp.Ans Key)
      (Session Key)} (h₀ : D.holds w₀ .down) (h : AgentRun sg (w₀, .down) c) :
    Machine.Good (agentWorld sg.trusts) D.allows (fun w => D.holds w .down)
      (Idles D) c := by
  have hinit : Machine.Good (agentWorld sg.trusts) D.allows
      (fun w => D.holds w .down) (Idles D) (w₀, .down) := h₀
  refine Machine.good_run idles_halt (fun w hw => follows_loadSession hw) ?_
    hinit h
  intro sess p w hi hp
  obtain rfl : p = beat ed25519Verify sess := hp
  exact follows_beat hi

end NodeLink.Proofs
