import NodeLink.Proofs.JournalGuard

/-!
# What the journal has stored is what was sent

For every command id outside the nonce keys: the first result the journal
file ever held for it is the output of an execution, the unknown-outcome
result, or a refusal of a command not started by then; and every upload
carries that result, unless an earlier upload has been acknowledged.

The map in memory `Tracks` an id when it still holds what the file held
first, or the server has acknowledged a result; pruning can drop a result
only in the second case. A started command is either acknowledged, or its
entry holds a result or says "executing", and between commands no entry
says that.
-/

namespace NodeLink.Proofs

open Lib Agent Protocol

/-- The result a map holds for a command id. -/
def resultIn (s : SeenStore) (id : String) : Option CommandResult :=
  (s.lookup id).bind SeenEntry.result

/-- The first result the journal file held for a command id. -/
def firstResult (id : String) :
    List (List Command × SeenStore) → Option CommandResult
  | [] => none
  | e :: older => (firstResult id older).or (resultIn e.2 id)

def firstStored (w : AgentWorld) (id : String) : Option CommandResult :=
  firstResult id w.saved

/-- The server has acknowledged a result for the command id. -/
def Acked (w : AgentWorld) (id : String) : Prop := ∃ r, (id, r) ∈ w.acked

/-- The entry of a command id says "executing". -/
def Executing (s : SeenStore) (id : String) : Prop :=
  ∃ entry, s.lookup id = some entry ∧ entry.state = some .executing

/-- Where a stored result may come from: a finished execution, a refusal
stored when no command with that id had been started, or recovery. -/
inductive Genuine (w : AgentWorld) (id : String) : CommandResult → Prop where
  | output {cmd : Command} {res : ExecutionResult} (reading : Nat)
      (hfin : (cmd, res) ∈ w.finished) (hid : cmd.id = id) :
      Genuine w id (CommandResult.completedAt res reading)
  | refused {started : List Command} {s : SeenStore} (reason : String)
      (hsaved : (started, s) ∈ w.saved)
      (hres : resultIn s id = some (refusal reason))
      (hnot : ∀ cmd ∈ started, cmd.id ≠ id) : Genuine w id (refusal reason)
  | unknown : Genuine w id SeenStore.unknownOutcome

structure Tracks (w : AgentWorld) (s : SeenStore) (id : String) : Prop where
  first : ∀ r, resultIn s id = some r → firstStored w id = some r ∨ Acked w id
  settled : ∀ entry, s.lookup id = some entry → entry.result ≠ none →
    entry.state = some .resultPending ∨ entry.state = some .acknowledged
  acked : ∀ entry, s.lookup id = some entry →
    entry.state = some .acknowledged → Acked w id
  kept : ∀ r, firstStored w id = some r → Acked w id ∨ resultIn s id ≠ none
  started : ∀ cmd ∈ w.started, cmd.id = id →
    Acked w id ∨ resultIn s id ≠ none ∨ Executing s id

/-- What holds of the world at any time, for the ids of commands. -/
structure Truth (w : AgentWorld) : Prop where
  disk : ∀ id, hasNoncePrefix id = false → Tracks w w.disk id
  sent : ∀ id r, (id, r) ∈ w.sent → hasNoncePrefix id = false →
    firstStored w id = some r ∨ Acked w id
  stored : ∀ id r, (id, r) ∈ w.sent → hasNoncePrefix id = false →
    firstStored w id ≠ none
  genuine : ∀ id r, hasNoncePrefix id = false → firstStored w id = some r →
    Genuine w id r
  acked : ∀ p ∈ w.acked, p ∈ w.sent
  finished : ∀ p ∈ w.finished, p.1 ∈ w.started

/-- What holds of the map in memory. -/
def Recalls (w : AgentWorld) : Phase → Prop
  | .down => True
  | .loaded s => ∀ id, hasNoncePrefix id = false → Tracks w s id
  | .quiet s => ∀ id, hasNoncePrefix id = false →
    Tracks w s id ∧ ¬ Executing s id
  | .reserved s _ => ∀ id, hasNoncePrefix id = false →
    Tracks w s id ∧ ¬ Executing s id
  | .armed s cmd => w.disk = s ∧ ∀ id, hasNoncePrefix id = false →
    Tracks w s id ∧ (Executing s id ↔ id = cmd.id)
  | .ran s cmd res => (cmd, res) ∈ w.finished ∧
    ∀ id, hasNoncePrefix id = false →
      Tracks w s id ∧ (Executing s id → id = cmd.id)

/-- The invariant of the protocol. -/
def Truthful (c : AgentWorld × Phase) : Prop := Truth c.1 ∧ Recalls c.1 c.2

/-! ## Worlds that have moved on -/

/-- The second world has the same file contents and commands started, and
more acknowledged. -/
structure MoreAcked (w w' : AgentWorld) : Prop where
  saved : w'.saved = w.saved
  started : w'.started = w.started
  acked : ∀ p ∈ w.acked, p ∈ w'.acked

theorem MoreAcked.acks {w w' : AgentWorld} (h : MoreAcked w w') {id : String}
    (ha : Acked w id) : Acked w' id := by
  obtain ⟨r, hr⟩ := ha
  exact ⟨r, h.acked _ hr⟩

theorem MoreAcked.firstStored_eq {w w' : AgentWorld} (h : MoreAcked w w')
    (id : String) : firstStored w' id = firstStored w id := by
  rw [firstStored, firstStored, h.saved]

theorem Tracks.later {w w' : AgentWorld} {s : SeenStore} {id : String}
    (h : Tracks w s id) (hw : MoreAcked w w') : Tracks w' s id := by
  refine ⟨?_, h.settled, ?_, ?_, ?_⟩
  · intro r hr
    rw [hw.firstStored_eq]
    exact (h.first r hr).imp_right hw.acks
  · intro entry hlook hstate
    exact hw.acks (h.acked entry hlook hstate)
  · intro r hr
    rw [hw.firstStored_eq] at hr
    exact (h.kept r hr).imp_left hw.acks
  · intro cmd hcmd hid
    rw [hw.started] at hcmd
    exact (h.started cmd hcmd hid).imp_left hw.acks

theorem Genuine.later {w w' : AgentWorld} {id : String} {r : CommandResult}
    (h : Genuine w id r) (hf : ∀ p ∈ w.finished, p ∈ w'.finished)
    (hs : ∀ p ∈ w.saved, p ∈ w'.saved) : Genuine w' id r := by
  cases h with
  | output reading hfin hid => exact .output reading (hf _ hfin) hid
  | refused reason hsaved hres hnot =>
      exact .refused reason (hs _ hsaved) hres hnot
  | unknown => exact .unknown

theorem Recalls.later {w w' : AgentWorld} {ph : Phase} (h : Recalls w ph)
    (hw : MoreAcked w w') (hd : w'.disk = w.disk)
    (hf : ∀ p ∈ w.finished, p ∈ w'.finished) : Recalls w' ph := by
  cases ph with
  | down => trivial
  | loaded s => exact fun id hid => (h id hid).later hw
  | quiet s => exact fun id hid => ⟨(h id hid).1.later hw, (h id hid).2⟩
  | reserved s cmd => exact fun id hid => ⟨(h id hid).1.later hw, (h id hid).2⟩
  | armed s cmd =>
      exact ⟨hd.trans h.1, fun id hid =>
        ⟨(h.2 id hid).1.later hw, (h.2 id hid).2⟩⟩
  | ran s cmd res =>
      exact ⟨hf _ h.1, fun id hid => ⟨(h.2 id hid).1.later hw, (h.2 id hid).2⟩⟩

/-! ## Replacing the file -/

section Replace

variable {w : AgentWorld} {a b s : SeenStore} {id : String}

theorem firstStored_replaceFile : firstStored (w.replaceFile s) id =
    (firstStored w id).or (resultIn s id) := rfl

/-- Saving a map that tracks an id changes nothing about what another map
says of it. -/
theorem Tracks.replaceFile (h : Tracks w a id) (hb : Tracks w b id) :
    Tracks (w.replaceFile b) a id := by
  refine ⟨?_, h.settled, h.acked, ?_, h.started⟩
  · intro r hr
    rcases h.first r hr with hf | ha
    · left
      rw [firstStored_replaceFile, hf]
      rfl
    · exact Or.inr ha
  · intro r hr
    rw [firstStored_replaceFile] at hr
    cases hf : firstStored w id with
    | some r' => exact h.kept r' hf
    | none =>
        rw [hf, Option.none_or] at hr
        rcases hb.first r hr with hf' | ha
        · rw [hf] at hf'
          cases hf'
        · exact Or.inl ha

/-- Saving a map with a new result for an id the file held none for. -/
theorem Tracks.record {entry : SeenEntry} {r : CommandResult}
    (hnew : Acked w id ∨ firstStored w id = none)
    (hlook : s.lookup id = some entry) (hres : entry.result = some r)
    (hstate : entry.state = some .resultPending) :
    Tracks (w.replaceFile s) s id := by
  have hresult : resultIn s id = some r := by rw [resultIn, hlook]; exact hres
  refine ⟨?_, ?_, ?_, ?_, ?_⟩
  · intro r' hr'
    rcases hnew with ha | hf
    · exact Or.inr ha
    · left
      rw [firstStored_replaceFile, hf, hr']
      rfl
  · intro e he _
    rw [hlook] at he
    obtain rfl := Option.some.inj he
    exact Or.inl hstate
  · intro e he hack
    rw [hlook] at he
    obtain rfl := Option.some.inj he
    rw [hstate] at hack
    cases hack
  · intro _ _
    right
    rw [hresult]
    exact nofun
  · intro _ _ _
    right
    left
    rw [hresult]
    exact nofun

/-- An id whose entry records nothing yet has no result in the file either. -/
theorem Tracks.unrecorded (h : Tracks w s id)
    (hun : SeenStore.SeenEntry.settled
      ((s.lookup id).getD SeenEntry.zero) = false) :
    resultIn s id = none ∧ (Acked w id ∨ firstStored w id = none) := by
  have hnone : resultIn s id = none := by
    cases hlook : s.lookup id with
    | none => rw [resultIn, hlook]; rfl
    | some entry =>
        rw [resultIn, hlook, Option.bind_some]
        by_contra hres
        rw [hlook, Option.getD_some, SeenStore.SeenEntry.settled] at hun
        have hsome := Option.isSome_iff_ne_none.mpr hres
        rcases h.settled entry hlook hres with hst | hst <;>
          simp [hst, hsome] at hun
  refine ⟨hnone, ?_⟩
  cases hf : firstStored w id with
  | none => exact Or.inr rfl
  | some r => exact Or.inl ((h.kept r hf).resolve_right fun hne => hne hnone)

end Replace

/-! ## Updates of the map -/

section Updates

variable {w : AgentWorld} {s s' : SeenStore} {id : String}

theorem resultIn_congr (hl : s'.lookup id = s.lookup id) :
    resultIn s' id = resultIn s id := by
  rw [resultIn, resultIn, hl]

theorem Executing.congr (hl : s'.lookup id = s.lookup id)
    (h : Executing s' id) : Executing s id := by
  obtain ⟨entry, hlook, hstate⟩ := h
  exact ⟨entry, hl ▸ hlook, hstate⟩

/-- Only the entry of the id matters. -/
theorem Tracks.congr (h : Tracks w s id) (hl : s'.lookup id = s.lookup id) :
    Tracks w s' id := by
  have hr := resultIn_congr hl
  refine ⟨?_, ?_, ?_, ?_, ?_⟩
  · rw [hr]
    exact h.first
  · rw [hl]
    exact h.settled
  · rw [hl]
    exact h.acked
  · rw [hr]
    exact h.kept
  · intro cmd hcmd hid
    rw [hr]
    exact (h.started cmd hcmd hid).imp_right fun h =>
      h.imp_right (Executing.congr hl.symm)

/-- A new state for an entry: "acknowledged" once the server has said so,
"executing" only for a reservation. -/
theorem Tracks.restate {entry : SeenEntry} {state : ExecutionState}
    (h : Tracks w s id) (hlook : s.lookup id = some entry)
    (hack : state = .acknowledged → Acked w id)
    (hset : entry.result ≠ none →
      state = .resultPending ∨ state = .acknowledged)
    (hexec : entry.state ≠ some .executing) :
    Tracks w (s.insert id { entry with state := some state }) id := by
  have hl : (s.insert id { entry with state := some state }).lookup id =
      some { entry with state := some state } := AList.lookup_insert s
  have hr : resultIn (s.insert id { entry with state := some state }) id =
      resultIn s id := by
    rw [resultIn, hl, resultIn, hlook]
    rfl
  refine ⟨?_, ?_, ?_, ?_, ?_⟩
  · rw [hr]
    exact h.first
  · intro e he hres
    rw [hl] at he
    obtain rfl := Option.some.inj he
    exact (hset hres).imp (congrArg some) (congrArg some)
  · intro e he hstate
    rw [hl] at he
    obtain rfl := Option.some.inj he
    exact hack (Option.some.inj hstate)
  · rw [hr]
    exact h.kept
  · intro cmd hcmd hid
    rw [hr]
    rcases h.started cmd hcmd hid with ha | hne | ⟨e, he, hstate⟩
    · exact Or.inl ha
    · exact Or.inr (Or.inl hne)
    · rw [hlook] at he
      obtain rfl := Option.some.inj he
      exact absurd hstate hexec

/-- The same, for any id. -/
theorem Tracks.restateKey {key : String} {entry : SeenEntry}
    {state : ExecutionState} (h : Tracks w s id)
    (hlook : s.lookup key = some entry)
    (hack : state = .acknowledged → Acked w key)
    (hset : state = .resultPending ∨ state = .acknowledged)
    (hexec : entry.state ≠ some .executing) :
    Tracks w (s.insert key { entry with state := some state }) id := by
  by_cases hid : id = key
  · subst hid
    exact h.restate hlook hack (fun _ => hset) hexec
  · exact h.congr (AList.lookup_insert_ne hid)

theorem not_executing_insert {entry : SeenEntry} {key : String}
    (h : ¬ Executing s id) (hstate : entry.state ≠ some .executing) :
    ¬ Executing (s.insert key entry) id := by
  rintro ⟨e, he, hexec⟩
  by_cases hid : id = key
  · rw [hid, AList.lookup_insert] at he
    obtain rfl := Option.some.inj he
    exact hstate hexec
  · rw [AList.lookup_insert_ne hid] at he
    exact h ⟨e, he, hexec⟩

theorem ne_nonceKey (hid : hasNoncePrefix id = false) (nonce : String) :
    id ≠ nonceKey nonce := by
  rintro rfl
  rw [hasNoncePrefix_nonceKey] at hid
  cases hid

/-- An id the map does not hold. -/
theorem Tracks.lookup_none (h : Tracks w s id) (hl : s.lookup id = none) :
    (∀ r, firstStored w id = some r → Acked w id) ∧
      ∀ cmd ∈ w.started, cmd.id = id → Acked w id := by
  have hr : resultIn s id = none := by rw [resultIn, hl]; rfl
  have hx : ¬ Executing s id := by
    rintro ⟨entry, hlook, -⟩
    rw [hl] at hlook
    cases hlook
  constructor
  · intro r hf
    exact (h.kept r hf).resolve_right fun hne => hne hr
  · intro cmd hcmd hid
    rcases h.started cmd hcmd hid with ha | hne | he
    · exact ha
    · exact absurd hr hne
    · exact absurd he hx

/-- An entry without a result, for an id that needs none. -/
theorem Tracks.blank {entry : SeenEntry} (hlook : s.lookup id = some entry)
    (hres : entry.result = none) (hstate : entry.state ≠ some .acknowledged)
    (hf : ∀ r, firstStored w id = some r → Acked w id)
    (hst : ∀ cmd ∈ w.started, cmd.id = id → Acked w id ∨ Executing s id) :
    Tracks w s id := by
  have hr : resultIn s id = none := by rw [resultIn, hlook]; exact hres
  refine ⟨?_, ?_, ?_, ?_, ?_⟩
  · intro r h
    rw [hr] at h
    cases h
  · intro e he hne
    rw [hlook] at he
    obtain rfl := Option.some.inj he
    exact absurd hres hne
  · intro e he hack
    rw [hlook] at he
    obtain rfl := Option.some.inj he
    exact absurd hack hstate
  · intro r hfr
    exact Or.inl (hf r hfr)
  · intro cmd hcmd hid
    exact (hst cmd hcmd hid).imp_right Or.inr

/-- Reserving a free id. -/
theorem Tracks.reserved {cid nonce : String} {expiry : Int}
    (h : Tracks w s id) (hcalm : ¬ Executing s id)
    (hid : hasNoncePrefix id = false) (hfree : s.lookup cid = none) :
    Tracks w (s.reserved cid nonce expiry) id ∧
      ¬ Executing (s.reserved cid nonce expiry) id := by
  have hl : (s.reserved cid nonce expiry).lookup id = if id = cid then
      some { expiry := expiry, nonce := nonce, state := some .reserved }
      else s.lookup id := by
    rw [lookup_reserved, if_neg (ne_nonceKey hid nonce)]
  by_cases hc : id = cid
  · rw [if_pos hc] at hl
    obtain ⟨hf, hst⟩ := h.lookup_none (hc ▸ hfree)
    refine ⟨.blank hl rfl nofun hf fun c hc' hcid => Or.inl (hst c hc' hcid), ?_⟩
    rintro ⟨e, he, hexec⟩
    rw [hl] at he
    obtain rfl := Option.some.inj he
    cases hexec
  · rw [if_neg hc] at hl
    exact ⟨h.congr hl, fun he => hcalm (he.congr hl)⟩

/-- Arming a reservation. -/
theorem Tracks.armed {cid : String} {entry : SeenEntry} (h : Tracks w s id)
    (hcalm : ¬ Executing s id) (hlook : s.lookup cid = some entry)
    (hstate : entry.state = some .reserved) :
    Tracks w (s.insert cid { entry with state := some .executing }) id ∧
      (Executing (s.insert cid { entry with state := some .executing }) id ↔
        id = cid) := by
  by_cases hc : id = cid
  · subst hc
    have hl : (s.insert id { entry with state := some .executing }).lookup id =
        some { entry with state := some .executing } := AList.lookup_insert s
    have hres : entry.result = none := by
      by_contra hne
      rcases h.settled entry hlook hne with hst | hst <;>
        (rw [hstate] at hst; cases hst)
    have hexec : Executing
        (s.insert id { entry with state := some .executing }) id :=
      ⟨_, hl, rfl⟩
    refine ⟨.blank hl hres nofun ?_ fun _ _ _ => Or.inr hexec,
      fun _ => rfl, fun _ => hexec⟩
    intro r hf
    refine (h.kept r hf).resolve_right fun hne => hne ?_
    rw [resultIn, hlook]
    exact hres
  · have hl : (s.insert cid { entry with state := some .executing }).lookup id =
        s.lookup id := AList.lookup_insert_ne hc
    exact ⟨h.congr hl, fun he => absurd (he.congr hl) hcalm,
      fun he => absurd he hc⟩

/-- Pruning drops nothing but acknowledged results. -/
theorem Tracks.pruned {now : Int} (h : Tracks w s id) :
    Tracks w (SeenStore.pruned now s) id := by
  cases hlook : s.lookup id with
  | none => exact h.congr (by rw [lookup_pruned, hlook]; rfl)
  | some entry =>
      by_cases hp : SeenStore.prunable now entry = true
      · have hl : (SeenStore.pruned now s).lookup id = none := by
          rw [lookup_pruned, hlook, Option.filter_some, hp]
          rfl
        have hr : resultIn (SeenStore.pruned now s) id = none := by
          rw [resultIn, hl]
          rfl
        have hstate : entry.state ≠ some .executing ∧
            entry.state ≠ some .resultPending := by
          simp only [SeenStore.prunable, Bool.and_eq_true, Bool.not_eq_true',
            Bool.or_eq_false_iff] at hp
          simpa using hp.1.1.imp_left And.right
        -- a result that is dropped has been acknowledged
        have hdrop : resultIn s id ≠ none → Acked w id := by
          intro hne
          rw [resultIn, hlook, Option.bind_some] at hne
          exact h.acked entry hlook
            ((h.settled entry hlook hne).resolve_left hstate.2)
        refine ⟨?_, ?_, ?_, ?_, ?_⟩
        · intro r hres
          rw [hr] at hres
          cases hres
        · intro e he
          rw [hl] at he
          cases he
        · intro e he
          rw [hl] at he
          cases he
        · intro r hf
          exact Or.inl ((h.kept r hf).elim (fun ha => ha) hdrop)
        · intro cmd hcmd hid
          rcases h.started cmd hcmd hid with ha | hne | ⟨e, he, hexec⟩
          · exact Or.inl ha
          · exact Or.inl (hdrop hne)
          · rw [hlook] at he
            obtain rfl := Option.some.inj he
            exact absurd hexec hstate.1
      · rw [Bool.not_eq_true] at hp
        refine h.congr ?_
        rw [lookup_pruned, hlook, Option.filter_some, hp]
        rfl

theorem not_executing_pruned {now : Int} (h : ¬ Executing s id) :
    ¬ Executing (SeenStore.pruned now s) id := by
  rintro ⟨e, he, hexec⟩
  rw [lookup_pruned, Option.filter_eq_some_iff] at he
  exact h ⟨e, he.1, hexec⟩

/-! ## Recording results -/

/-- What recording leaves of an id: what was tracked before, or a new result
where the file had none. -/
def Renewed (w : AgentWorld) (s : SeenStore) (id : String) : Prop :=
  Tracks w s id ∨ ∃ entry r, s.lookup id = some entry ∧
    entry.result = some r ∧ entry.state = some .resultPending ∧
      (Acked w id ∨
        (firstStored w id = none ∧ Genuine (w.replaceFile s) id r))

theorem Renewed.tracks (h : Renewed w s id) : Tracks (w.replaceFile s) s id := by
  rcases h with h | ⟨entry, r, hlook, hres, hstate, hnew⟩
  · exact h.replaceFile h
  · exact .record (hnew.imp_right And.left) hlook hres hstate

/-- The entry a result is recorded in. -/
theorem lookup_recorded_self (s : SeenStore) (id : String) (expiry : Int)
    (r : CommandResult) :
    ∃ entry, (s.recorded id expiry r).lookup id = some entry ∧
      entry.result = some r ∧ entry.state = some .resultPending :=
  ⟨_, AList.lookup_insert s, rfl, rfl⟩

theorem lookup_recorded_ne {cid : String} {expiry : Int} {r : CommandResult}
    (hc : id ≠ cid) : (s.recorded cid expiry r).lookup id = s.lookup id :=
  AList.lookup_insert_ne hc

theorem not_executing_recorded {cid : String} {expiry : Int}
    {r : CommandResult} (h : Executing s id → id = cid) :
    ¬ Executing (s.recorded cid expiry r) id := by
  by_cases hc : id = cid
  · subst hc
    obtain ⟨entry, hlook, -, hstate⟩ :=
      lookup_recorded_self s id expiry r
    rintro ⟨e, he, hexec⟩
    rw [hlook] at he
    obtain rfl := Option.some.inj he
    rw [hstate] at hexec
    cases hexec
  · intro he
    exact hc (h (he.congr (lookup_recorded_ne hc)))

theorem Tracks.recorded {cid : String} {expiry : Int} {r : CommandResult}
    (h : Tracks w s id) (hrec : Recordable s cid expiry)
    (hgen : id = cid → Acked w id ∨
      Genuine (w.replaceFile (s.recorded cid expiry r)) id r) :
    Renewed w (s.recorded cid expiry r) id := by
  by_cases hc : id = cid
  · right
    have hg := hgen hc
    subst hc
    obtain ⟨entry, hlook, hres, hstate⟩ :=
      lookup_recorded_self s id expiry r
    refine ⟨entry, r, hlook, hres, hstate, ?_⟩
    rcases (h.unrecorded hrec.unsettled).2 with ha | hf
    · exact Or.inl ha
    · exact hg.imp_right fun hg => ⟨hf, hg⟩
  · exact Or.inl (h.congr (lookup_recorded_ne hc))

/-- A refusal is stored for an id nothing has been started for, unless the
server has a result already. -/
theorem Tracks.refused {cid : String} {expiry : Int} {reason : String}
    (h : Tracks w s id) (hcalm : ¬ Executing s id)
    (hrec : Recordable s cid expiry) :
    Renewed w (s.recorded cid expiry (refusal reason)) id := by
  refine h.recorded hrec ?_
  rintro rfl
  by_cases hst : ∃ cmd ∈ w.started, cmd.id = id
  · left
    obtain ⟨cmd, hcmd, hid⟩ := hst
    rcases h.started cmd hcmd hid with ha | hne | he
    · exact ha
    · exact absurd (h.unrecorded hrec.unsettled).1 hne
    · exact absurd he hcalm
  · right
    refine .refused reason (List.mem_cons_self (l := w.saved)) ?_ ?_
    · obtain ⟨entry, hlook, hres, -⟩ := lookup_recorded_self s id expiry
        (refusal reason)
      rw [resultIn, hlook]
      exact hres
    · intro cmd hcmd hid
      exact hst ⟨cmd, hcmd, hid⟩

/-- Recovery resolves an interrupted execution and drops reservations. -/
theorem Tracks.recovered (h : Tracks w s id)
    (hid : hasNoncePrefix id = false) :
    Renewed w s.recovered id ∧ ¬ Executing s.recovered id := by
  have hl : s.recovered.lookup id = if s.releases id then none
      else (s.lookup id).map (SeenStore.resolveInterrupted id) :=
    lookup_recovered
  by_cases hr : s.releases id = true
  · rw [if_pos hr] at hl
    -- only the reservation itself may have the id
    obtain ⟨k, entry, hlook, hrel, hk | ⟨-, hk⟩⟩ := releases_iff.mp hr
    · subst hk
      have hstate := (releasable_state hrel).2
      have hres : entry.result = none := by
        by_contra hne
        rcases h.settled entry hlook hne with hst | hst <;>
          (rw [hstate] at hst; cases hst)
      have hnone : resultIn s k = none := by rw [resultIn, hlook]; exact hres
      have hrn : resultIn s.recovered k = none := by rw [resultIn, hl]; rfl
      refine ⟨Or.inl ⟨?_, ?_, ?_, ?_, ?_⟩, ?_⟩
      · intro r hr'
        rw [hrn] at hr'
        cases hr'
      · intro e he
        rw [hl] at he
        cases he
      · intro e he
        rw [hl] at he
        cases he
      · intro r hf
        exact Or.inl ((h.kept r hf).resolve_right fun hne => hne hnone)
      · intro cmd hcmd hcid
        rcases h.started cmd hcmd hcid with ha | hne | ⟨e, he, hexec⟩
        · exact Or.inl ha
        · exact absurd hnone hne
        · rw [hlook] at he
          obtain rfl := Option.some.inj he
          rw [hstate] at hexec
          cases hexec
      · rintro ⟨e, he, -⟩
        rw [hl] at he
        cases he
    · exact absurd hk.symm (ne_nonceKey hid _)
  · rw [if_neg hr] at hl
    cases hlook : s.lookup id with
    | none =>
        rw [hlook] at hl
        have hc : s.recovered.lookup id = s.lookup id := hl.trans hlook.symm
        refine ⟨Or.inl (h.congr hc), fun he => ?_⟩
        obtain ⟨e, he, -⟩ := he.congr hc
        rw [hlook] at he
        cases he
    | some entry =>
        rw [hlook, Option.map_some, SeenStore.resolveInterrupted] at hl
        by_cases hstate : entry.state = some .executing
        · rw [if_pos (by simp [hid, hstate])] at hl
          have hun : SeenStore.SeenEntry.settled
              ((s.lookup id).getD SeenEntry.zero) = false := by
            simp [hlook, SeenStore.SeenEntry.settled, hstate]
          refine ⟨Or.inr ⟨_, _, hl, rfl, rfl, ?_⟩, ?_⟩
          · exact (h.unrecorded hun).2.imp_right fun hf => ⟨hf, .unknown⟩
          · rintro ⟨e, he, hexec⟩
            rw [hl] at he
            obtain rfl := Option.some.inj he
            cases hexec
        · rw [if_neg (by simp [hid, hstate])] at hl
          have hc : s.recovered.lookup id = s.lookup id := hl.trans hlook.symm
          refine ⟨Or.inl (h.congr hc), fun he => ?_⟩
          obtain ⟨e, he, hexec⟩ := he.congr hc
          rw [hlook] at he
          obtain rfl := Option.some.inj he
          exact hstate hexec

theorem not_executing_of_not_interrupted (h : s.interrupted = false)
    (hid : hasNoncePrefix id = false) : ¬ Executing s id := by
  rintro ⟨entry, hlook, hstate⟩
  rw [SeenStore.interrupted, List.any_eq_false] at h
  exact h ⟨id, entry⟩ (AList.mem_lookup_iff.mp hlook) (by simp [hid, hstate])

end Updates

/-! ## The invariant -/

section Invariant

variable {Key : Type} {ed25519Verify : Key → Bytes → Bytes → Bool}
  {sg : Signer ed25519Verify} {w : AgentWorld} {a b : Phase} {s : SeenStore}

/-- What an edit may write tracks every id. -/
theorem tracks_edit (h : Recalls w a) (he : Edit sg w a b) :
    ∀ id, hasNoncePrefix id = false → Tracks w b.map id := by
  intro id hid
  cases he with
  | rewrite => exact (h id hid).1
  | acknowledge hlook hstate hresult hacked =>
      refine (h id hid).1.restateKey hlook (fun _ => ⟨_, hacked⟩)
        (Or.inr rfl) ?_
      rw [hstate]
      exact nofun
  | requeue hlook hstate hresult =>
      refine (h id hid).1.restateKey hlook nofun (Or.inl rfl) ?_
      rw [hstate]
      exact nofun
  | reserve hreceived hsigned hlive hfree hnonce =>
      exact ((h id hid).1.reserved (h id hid).2 hid hfree).1
  | arm hlook hstate =>
      exact ((h id hid).1.armed (h id hid).2 hlook hstate).1

theorem recalls_saved (h : Recalls w a) (he : Edit sg w a b) :
    Recalls (w.replaceFile b.map) b := by
  have htracks : ∀ id, hasNoncePrefix id = false →
      Tracks (w.replaceFile b.map) b.map id := fun id hid =>
    (tracks_edit h he id hid).replaceFile (tracks_edit h he id hid)
  cases he with
  | rewrite => exact fun id hid => ⟨htracks id hid, (h id hid).2⟩
  | acknowledge hlook hstate hresult hacked =>
      exact fun id hid =>
        ⟨htracks id hid, not_executing_insert (h id hid).2 nofun⟩
  | requeue hlook hstate hresult =>
      exact fun id hid =>
        ⟨htracks id hid, not_executing_insert (h id hid).2 nofun⟩
  | reserve hreceived hsigned hlive hfree hnonce =>
      exact fun id hid => ⟨htracks id hid,
        ((h id hid).1.reserved (h id hid).2 hid hfree).2⟩
  | arm hlook hstate =>
      exact ⟨rfl, fun id hid => ⟨htracks id hid,
        ((h id hid).1.armed (h id hid).2 hlook hstate).2⟩⟩

/-- A save that reports an error leaves the phase as it was. -/
theorem recalls_unsaved (h : Recalls w a) (he : Edit sg w a b) :
    Recalls (w.replaceFile b.map) a := by
  have hb := tracks_edit h he
  cases he with
  | arm => exact fun id hid => ⟨(h id hid).1.replaceFile (hb id hid), (h id hid).2⟩
  | _ => exact fun id hid => ⟨(h id hid).1.replaceFile (hb id hid), (h id hid).2⟩

theorem renewed_records (h : Recalls w a) (hr : Records w a s) :
    ∀ id, hasNoncePrefix id = false → Renewed w s id ∧ ¬ Executing s id := by
  intro id hid
  cases hr with
  | recover hint => exact (h id hid).recovered hid
  | refuse hreceived hrecord =>
      exact ⟨(h id hid).1.refused (h id hid).2 hrecord,
        not_executing_recorded fun he => absurd he (h id hid).2⟩
  | abandon hrecord =>
      exact ⟨(h id hid).1.refused (h id hid).2 hrecord,
        not_executing_recorded fun he => absurd he (h id hid).2⟩
  | record hrecord =>
      refine ⟨(h.2 id hid).1.recorded hrecord fun hc => Or.inr ?_,
        not_executing_recorded (h.2 id hid).2⟩
      exact .output _ h.1 hc.symm

theorem truth_replaceFile (h : Truth w)
    (hs : ∀ id, hasNoncePrefix id = false → Renewed w s id) :
    Truth (w.replaceFile s) := by
  have hacked : ∀ id, hasNoncePrefix id = false → Acked w id →
      firstStored w id ≠ none := by
    rintro id hid ⟨r, hr⟩
    exact h.stored id r (h.acked _ hr) hid
  refine ⟨fun id hid => (hs id hid).tracks, ?_, ?_, ?_, h.acked, h.finished⟩
  · intro id r hr hid
    refine (h.sent id r hr hid).imp_left fun hf => ?_
    rw [firstStored_replaceFile, hf]
    rfl
  · intro id r hr hid
    obtain ⟨r', hf⟩ := Option.ne_none_iff_exists'.mp (h.stored id r hr hid)
    rw [firstStored_replaceFile, hf]
    exact nofun
  · intro id r hid hf
    rw [firstStored_replaceFile] at hf
    cases hold : firstStored w id with
    | some r' =>
        rw [hold, Option.some_or] at hf
        obtain rfl := Option.some.inj hf
        exact (h.genuine id r' hid hold).later (fun p hp => hp)
          fun p hp => List.mem_cons_of_mem _ hp
    | none =>
        rw [hold, Option.none_or] at hf
        rcases hs id hid with htr | ⟨entry, r', hlook, hres, -, hnew⟩
        · rcases htr.first r hf with hf' | ha
          · rw [hold] at hf'
            cases hf'
          · exact absurd hold (hacked id hid ha)
        · rw [resultIn, hlook, Option.bind_some, hres] at hf
          obtain rfl := Option.some.inj hf
          rcases hnew with ha | ⟨-, hg⟩
          · exact absurd hold (hacked id hid ha)
          · exact hg

/-- A step that leaves the file, the executions and the reports alone. -/
theorem Truth.later {w' : AgentWorld} (h : Truth w) (hw : MoreAcked w w')
    (hd : w'.disk = w.disk) (hsent : w'.sent = w.sent)
    (hf : w'.finished = w.finished) (ha : ∀ p ∈ w'.acked, p ∈ w.sent) :
    Truth w' := by
  refine ⟨?_, ?_, ?_, ?_, ?_, ?_⟩
  · rw [hd]
    exact fun id hid => (h.disk id hid).later hw
  · rw [hsent]
    intro id r hr hid
    rw [hw.firstStored_eq]
    exact (h.sent id r hr hid).imp_right hw.acks
  · rw [hsent]
    intro id r hr hid
    rw [hw.firstStored_eq]
    exact h.stored id r hr hid
  · intro id r hid hr
    rw [hw.firstStored_eq] at hr
    exact (h.genuine id r hid hr).later (by rw [hf]; exact fun p hp => hp)
      (by rw [hw.saved]; exact fun p hp => hp)
  · rw [hsent]
    exact ha
  · rw [hf, hw.started]
    exact h.finished

/-- Reporting a result the map holds. -/
theorem truth_send {id : String} {r : CommandResult} (h : Truth w)
    (hq : Recalls w (.quiet s)) (hr : resultIn s id = some r) :
    Truth (w.send id r) := by
  refine ⟨fun i hi => (h.disk i hi).later ⟨rfl, rfl, fun p hp => hp⟩, ?_, ?_,
    fun i r' hi hf => (h.genuine i r' hi hf).later (fun p hp => hp)
      fun p hp => hp, ?_, h.finished⟩
  · intro i r' hmem hi
    rcases List.mem_cons.mp hmem with heq | hmem
    · obtain ⟨rfl, rfl⟩ := Prod.mk.inj heq
      exact (hq i hi).1.first _ hr
    · exact h.sent i r' hmem hi
  · intro i r' hmem hi
    rcases List.mem_cons.mp hmem with heq | hmem
    · obtain ⟨rfl, rfl⟩ := Prod.mk.inj heq
      rcases (hq i hi).1.first _ hr with hf | ⟨r'', ha⟩
      · show firstStored w i ≠ none
        rw [hf]
        exact nofun
      · exact h.stored i r'' (h.acked _ ha) hi
    · exact h.stored i r' hmem hi
  · intro p hp
    exact List.mem_cons_of_mem _ (h.acked p hp)

/-- Starting a command whose entry says "executing". -/
theorem Tracks.start {w' : AgentWorld} {id : String} {cmd : Command}
    (h : Tracks w s id) (hexec : id = cmd.id → Executing s id)
    (hsaved : w'.saved = w.saved) (hacked : w'.acked = w.acked)
    (hst : w'.started = cmd :: w.started) : Tracks w' s id := by
  have hf : firstStored w' id = firstStored w id := by
    rw [firstStored, firstStored, hsaved]
  have ha : Acked w' id ↔ Acked w id := by rw [Acked, Acked, hacked]
  refine ⟨?_, h.settled, ?_, ?_, ?_⟩
  · rw [hf, ha]
    exact h.first
  · rw [ha]
    exact h.acked
  · rw [hf, ha]
    exact h.kept
  · intro c hc hid
    rw [ha]
    rw [hst] at hc
    rcases List.mem_cons.mp hc with rfl | hc
    · exact Or.inr (Or.inr (hexec hid.symm))
    · exact h.started c hc hid

theorem truth_start {cmd : Command} (h : Truth w)
    (ha : Recalls w (.armed s cmd)) : Truth (w.start cmd) := by
  obtain ⟨hdisk, hs⟩ := ha
  refine ⟨?_, h.sent, h.stored, ?_, h.acked, ?_⟩
  · intro id hid
    refine (h.disk id hid).start ?_ rfl rfl rfl
    rw [hdisk]
    exact (hs id hid).2.mpr
  · exact fun id r hid hf => (h.genuine id r hid hf).later (fun p hp => hp)
      fun p hp => hp
  · exact fun p hp => List.mem_cons_of_mem _ (h.finished p hp)

theorem truth_finish {cmd : Command} {res : ExecutionResult} (h : Truth w)
    (ha : Recalls w (.armed s cmd)) :
    Truth (w.finish cmd res) ∧ Recalls (w.finish cmd res) (.ran s cmd res) := by
  have hst := truth_start h ha
  refine ⟨⟨?_, h.sent, h.stored, ?_, h.acked, ?_⟩, List.mem_cons_self, ?_⟩
  · intro id hid
    refine (h.disk id hid).start ?_ rfl rfl rfl
    rw [ha.1]
    exact (ha.2 id hid).2.mpr
  · exact fun id r hid hf => (h.genuine id r hid hf).later
      (fun p hp => List.mem_cons_of_mem _ hp) fun p hp => hp
  · intro p hp
    rcases List.mem_cons.mp hp with rfl | hp
    · exact List.mem_cons_self
    · exact hst.finished p hp
  · intro id hid
    exact ⟨(ha.2 id hid).1.start (ha.2 id hid).2.mpr rfl rfl rfl,
      (ha.2 id hid).2.mp⟩

theorem truthful_step (c c' : AgentWorld × Phase) (h : Truthful c)
    (hs : Protocol.Step sg c c') : Truthful c' := by
  obtain ⟨ht, hrec⟩ := h
  cases hs with
  | tick hr =>
      exact ⟨ht.later ⟨rfl, rfl, fun p hp => hp⟩ rfl rfl rfl ht.acked,
        hrec.later ⟨rfl, rfl, fun p hp => hp⟩ rfl fun p hp => hp⟩
  | halt => exact ⟨ht, trivial⟩
  | load => exact ⟨ht, ht.disk⟩
  | undisturbed hint =>
      exact ⟨ht, fun id hid =>
        ⟨hrec id hid, not_executing_of_not_interrupted hint hid⟩⟩
  | saved he =>
      exact ⟨truth_replaceFile ht fun id hid => Or.inl (tracks_edit hrec he id hid),
        recalls_saved hrec he⟩
  | unsaved he =>
      exact ⟨truth_replaceFile ht fun id hid => Or.inl (tracks_edit hrec he id hid),
        recalls_unsaved hrec he⟩
  | recorded hr =>
      have hren := renewed_records hrec hr
      exact ⟨truth_replaceFile ht fun id hid => (hren id hid).1,
        fun id hid => ⟨(hren id hid).1.tracks, (hren id hid).2⟩⟩
  | unrecorded hr =>
      have hren := renewed_records hrec hr
      exact ⟨truth_replaceFile ht fun id hid => (hren id hid).1, trivial⟩
  | prune =>
      exact ⟨ht, fun id hid =>
        ⟨(hrec id hid).1.pruned, not_executing_pruned (hrec id hid).2⟩⟩
  | @send w s id entry result hlook hresult =>
      have hr : resultIn s id = some result := by
        rw [resultIn, hlook]
        exact hresult
      exact ⟨truth_send ht hrec hr,
        hrec.later ⟨rfl, rfl, fun p hp => hp⟩ rfl fun p hp => hp⟩
  | @answered w ph id result hsent =>
      have hmore : MoreAcked w (w.ack id result) :=
        ⟨rfl, rfl, fun p hp => List.mem_cons_of_mem _ hp⟩
      refine ⟨ht.later hmore rfl rfl rfl ?_,
        hrec.later hmore rfl fun p hp => hp⟩
      intro p hp
      rcases List.mem_cons.mp hp with rfl | hp
      · exact hsent
      · exact ht.acked p hp
  | beat =>
      exact ⟨ht.later ⟨rfl, rfl, fun p hp => hp⟩ rfl rfl rfl ht.acked,
        hrec.later ⟨rfl, rfl, fun p hp => hp⟩ rfl fun p hp => hp⟩
  | receive =>
      exact ⟨ht.later ⟨rfl, rfl, fun p hp => hp⟩ rfl rfl rfl ht.acked,
        hrec.later ⟨rfl, rfl, fun p hp => hp⟩ rfl fun p hp => hp⟩
  | start => exact ⟨truth_start ht hrec, trivial⟩
  | finish => exact truth_finish ht hrec

/-- An agent just installed: an empty journal and empty logs. -/
def Installed (w : AgentWorld) : Prop := ∃ clock, w = { disk := ∅, clock := clock }

theorem truthful_init (h : Installed w) : Truthful (w, .down) := by
  obtain ⟨clock, rfl⟩ := h
  have hempty : ∀ id, (∅ : SeenStore).lookup id = none := AList.lookup_empty
  have hnone : ∀ {p : Prop} {α : Type} {a : α}, a ∈ ([] : List α) → p :=
    fun hmem => absurd hmem List.not_mem_nil
  have htracks : ∀ id, Tracks { disk := ∅, clock := clock } ∅ id := by
    intro id
    refine ⟨?_, ?_, ?_, ?_, fun _ hmem => hnone hmem⟩
    · intro r hr
      rw [resultIn, hempty] at hr
      cases hr
    · intro entry he
      rw [hempty] at he
      cases he
    · intro entry he
      rw [hempty] at he
      cases he
    · intro r hr
      cases hr
  refine ⟨⟨fun id _ => htracks id, fun _ _ hmem => hnone hmem,
    fun _ _ hmem => hnone hmem, ?_, fun _ hmem => hnone hmem,
    fun _ hmem => hnone hmem⟩, trivial⟩
  intro id r _ hr
  cases hr

theorem truthful_run {w' : AgentWorld} {ph : Phase} (h : Installed w)
    (hr : Protocol.Run sg (w, .down) (w', ph)) : Truthful (w', ph) :=
  invariant_of_steps truthful_step (truthful_init h) hr

end Invariant

end NodeLink.Proofs
