import Mathlib
import NodeLink.Proofs.AgentRefinement
import NodeLink.Proofs.AtMostOnce
import NodeLink.Proofs.JournalTruth

/-!
# Results in the journal are stable

Whatever is delivered, refused or cut short: a result the journal file holds
for a command id stays what it is until its entry leaves the file, uploads
carry the result the file holds, and what leaves the file is acknowledged,
bears no state, or is a reservation nothing was started for.

The map in memory lags `Behind` the file by acknowledgements and by
reservations whose save was reported to fail, never by a result. A started
command's own entry stays until its signed expiry, and is settled whenever
the process is between commands.
-/

namespace NodeLink.Proofs

open Lib Agent Protocol

/-- An entry that may leave the file: it awaits no result and no
acknowledgement. -/
def Removable (entry : SeenEntry) : Prop :=
  entry.state = some .acknowledged ∨ entry.state = none ∨
    entry.state = some .reserved

/-- An entry pruning may drop once it has expired. -/
def Discharged (entry : SeenEntry) : Prop :=
  entry.state = some .acknowledged ∨ entry.state = none

/-- `s'` comes after `s`: results stay with their entries, and only entries
that may leave are missing. -/
structure Retains (leaves : SeenEntry → Prop) (s s' : SeenStore) : Prop where
  results : ∀ key entry r, s.lookup key = some entry →
    entry.result = some r → s'.lookup key = none ∨ resultIn s' key = some r
  drops : ∀ key entry, s.lookup key = some entry → s'.lookup key = none →
    leaves entry

/-- A journal as the agent keeps it: a result belongs to an entry that is
pending or acknowledged, and the nonce key of a reservation has no state. -/
structure Tidy (s : SeenStore) : Prop where
  settled : ∀ key entry, s.lookup key = some entry → entry.result ≠ none →
    entry.state = some .resultPending ∨ entry.state = some .acknowledged
  apart : ∀ key entry other, s.lookup key = some entry →
    SeenStore.releasable key entry = true →
      s.lookup (nonceKey entry.nonce) = some other → other.state = none

/-- What the map in memory knows of the file. -/
structure Behind (s disk : SeenStore) : Prop where
  shared : ∀ key x, s.lookup key = some x → ∃ y, disk.lookup key = some y ∧
    y.result = x.result ∧ (Discharged x → y.state = x.state)
  extra : ∀ key y, s.lookup key = none → disk.lookup key = some y →
    y.state = none ∨ y.state = some .reserved

/-! ## Maps that come after one another -/

section Maps

variable {s s' disk : SeenStore} {key : String} {entry : SeenEntry}

theorem tidy_empty : Tidy ∅ := by
  constructor
  · intro key entry hlook
    cases hlook
  · intro key entry other hlook
    cases hlook

theorem Tidy.unsettled (h : Tidy s) (hlook : s.lookup key = some entry)
    (hp : entry.state ≠ some .resultPending)
    (ha : entry.state ≠ some .acknowledged) : entry.result = none := by
  by_contra hres
  exact (h.settled key entry hlook hres).elim hp ha

theorem Retains.refl {leaves : SeenEntry → Prop} : Retains leaves s s := by
  constructor
  · intro key entry r hlook hres
    right
    rw [resultIn, hlook]
    exact hres
  · intro key entry hlook hnone
    rw [hlook] at hnone
    cases hnone

theorem Behind.refl : Behind s s := by
  constructor
  · exact fun key x hlook => ⟨x, hlook, rfl, fun _ => rfl⟩
  · intro key y hnone hlook
    rw [hnone] at hlook
    cases hlook

/-- What comes after the map in memory comes after the file. -/
theorem Behind.retains (h : Behind s disk) (hdisk : Tidy disk)
    (hr : Retains Discharged s s') : Retains Removable disk s' := by
  constructor
  · intro key y r hlook hres
    cases hs : s.lookup key with
    | none =>
        have hnone : y.result = none := by
          refine hdisk.unsettled hlook ?_ ?_
          · rcases h.extra key y hs hlook with hst | hst <;>
              (rw [hst]; exact fun hne => by cases hne)
          · rcases h.extra key y hs hlook with hst | hst <;>
              (rw [hst]; exact fun hne => by cases hne)
        rw [hnone] at hres
        cases hres
    | some x =>
        obtain ⟨y', hlook', hsame, -⟩ := h.shared key x hs
        obtain rfl := Option.some.inj (hlook.symm.trans hlook')
        exact hr.results key x r hs (hsame ▸ hres)
  · intro key y hlook hnone
    cases hs : s.lookup key with
    | none => exact Or.inr (h.extra key y hs hlook)
    | some x =>
        obtain ⟨y', hlook', -, hstate⟩ := h.shared key x hs
        obtain rfl := Option.some.inj (hlook.symm.trans hlook')
        have hx := hr.drops key x hs hnone
        rw [Removable, hstate hx]
        exact hx.imp_right Or.inl

/-- Writing an entry that keeps the result there was. -/
theorem Retains.insert {leaves : SeenEntry → Prop}
    (h : ∀ old r, s.lookup key = some old → old.result = some r →
      entry.result = some r) : Retains leaves s (s.insert key entry) := by
  constructor
  · intro k e r hlook hres
    right
    by_cases hk : k = key
    · subst hk
      rw [resultIn, AList.lookup_insert]
      exact h e r hlook hres
    · rw [resultIn, AList.lookup_insert_ne hk, hlook]
      exact hres
  · intro k e hlook hnone
    by_cases hk : k = key
    · rw [hk, AList.lookup_insert] at hnone
      cases hnone
    · rw [AList.lookup_insert_ne hk, hlook] at hnone
      cases hnone

/-- A new state for an entry. -/
theorem Retains.restate {leaves : SeenEntry → Prop} {state : ExecutionState}
    (hlook : s.lookup key = some entry) :
    Retains leaves s (s.insert key { entry with state := some state }) := by
  refine .insert ?_
  intro old r hold hres
  obtain rfl := Option.some.inj (hlook.symm.trans hold)
  exact hres

theorem lookup_reserved_of_some {id nonce : String} {expiry : Int}
    (hid : s.lookup id = none) (hnonce : s.lookup (nonceKey nonce) = none)
    (hlook : s.lookup key = some entry) :
    (s.reserved id nonce expiry).lookup key = some entry := by
  rw [lookup_reserved, if_neg, if_neg, hlook]
  · intro heq
    rw [heq, hid] at hlook
    cases hlook
  · intro heq
    rw [heq, hnonce] at hlook
    cases hlook

theorem Retains.reserved {leaves : SeenEntry → Prop} {id nonce : String}
    {expiry : Int} (hid : s.lookup id = none)
    (hnonce : s.lookup (nonceKey nonce) = none) :
    Retains leaves s (s.reserved id nonce expiry) := by
  constructor
  · intro k e r hlook hres
    right
    rw [resultIn, lookup_reserved_of_some hid hnonce hlook]
    exact hres
  · intro k e hlook hnone
    rw [lookup_reserved_of_some hid hnonce hlook] at hnone
    cases hnone

/-- Recording needs an entry without a settled result. -/
theorem Retains.recorded {leaves : SeenEntry → Prop} {id : String}
    {expiry : Int} {result : CommandResult} (hs : Tidy s)
    (hrec : Recordable s id expiry) :
    Retains leaves s (s.recorded id expiry result) := by
  refine .insert ?_
  intro old r hold hres
  have hun := hrec.unsettled
  rw [hold, Option.getD_some, SeenStore.SeenEntry.settled, hres] at hun
  have hne : old.result ≠ none := by
    rw [hres]
    exact Option.some_ne_none r
  rcases hs.settled id old hold hne with hst | hst
  · rw [hst] at hun
    cases hun
  · rw [hst] at hun
    cases hun

theorem Retains.pruned {now : Int} :
    Retains Discharged s (SeenStore.pruned now s) := by
  constructor
  · intro k e r hlook hres
    by_cases hp : SeenStore.prunable now e = true
    · left
      rw [lookup_pruned, hlook, Option.filter_some, hp]
      rfl
    · right
      rw [Bool.not_eq_true] at hp
      rw [resultIn, lookup_pruned, hlook, Option.filter_some, hp]
      exact hres
  · intro k e hlook hnone
    have hp : SeenStore.prunable now e = true := by
      by_contra hp
      rw [Bool.not_eq_true] at hp
      rw [lookup_pruned, hlook, Option.filter_some, hp] at hnone
      cases hnone
    simp only [SeenStore.prunable, Bool.and_eq_true, Bool.not_eq_true',
      Bool.or_eq_false_iff, beq_eq_false_iff_ne] at hp
    obtain ⟨⟨⟨⟨hr, hx⟩, hp'⟩, -⟩, -⟩ := hp
    cases hst : e.state with
    | none => exact Or.inr hst
    | some st =>
        cases st with
        | reserved => exact absurd hst hr
        | executing => exact absurd hst hx
        | resultPending => exact absurd hst hp'
        | acknowledged => exact Or.inl hst

/-- Recovery drops reservations and their nonces, and gives a result only to
what has none. -/
theorem Retains.recovered (hs : Tidy s) : Retains Removable s s.recovered := by
  constructor
  · intro k e r hlook hres
    by_cases hr : s.releases k = true
    · left
      rw [lookup_recovered, if_pos hr]
    · right
      have hkeep : SeenStore.resolveInterrupted k e = e := by
        rw [SeenStore.resolveInterrupted, if_neg]
        intro hexec
        simp only [Bool.and_eq_true, beq_iff_eq] at hexec
        rcases hs.settled k e hlook (by rw [hres]; intro hnone; cases hnone) with hst | hst
        · rw [hexec.2] at hst
          cases hst
        · rw [hexec.2] at hst
          cases hst
      rw [resultIn, lookup_recovered, if_neg hr, hlook, Option.map_some, hkeep]
      exact hres
  · intro k e hlook hnone
    by_cases hr : s.releases k = true
    · obtain ⟨k', e', hlook', hrel, hk | ⟨-, hk⟩⟩ := releases_iff.mp hr
      · subst hk
        obtain rfl := Option.some.inj (hlook'.symm.trans hlook)
        exact Or.inr (Or.inr (releasable_state hrel).2)
      · subst hk
        exact Or.inr (Or.inl (hs.apart k' e' e hlook' hrel hlook))
    · rw [lookup_recovered, if_neg hr, hlook] at hnone
      cases hnone

/-! ## The maps the agent saves -/

/-- Without reservations only the results matter. -/
theorem tidy_of_clean (hclean : NoReservation s)
    (h : ∀ k e, s.lookup k = some e → e.result ≠ none →
      e.state = some .resultPending ∨ e.state = some .acknowledged) :
    Tidy s := by
  refine ⟨h, ?_⟩
  intro k e other hlook hrel
  rw [hclean k e hlook] at hrel
  cases hrel

theorem Tidy.insert (h : Tidy s) (hclean : NoReservation (s.insert key entry))
    (hentry : entry.result ≠ none → entry.state = some .resultPending ∨
      entry.state = some .acknowledged) : Tidy (s.insert key entry) := by
  refine tidy_of_clean hclean ?_
  intro k e hlook hres
  by_cases hk : k = key
  · rw [hk, AList.lookup_insert] at hlook
    obtain rfl := Option.some.inj hlook
    exact hentry hres
  · rw [AList.lookup_insert_ne hk] at hlook
    exact h.settled k e hlook hres

theorem Tidy.reserved (h : Tidy s) (hclean : NoReservation s)
    (id nonce : String) (expiry : Int) :
    Tidy (s.reserved id nonce expiry) := by
  constructor
  · intro k e hlook hres
    rw [lookup_reserved] at hlook
    split at hlook
    · obtain rfl := Option.some.inj hlook
      exact absurd rfl hres
    · split at hlook
      · obtain rfl := Option.some.inj hlook
        exact absurd rfl hres
      · exact h.settled k e hlook hres
  · intro k e other hlook hrel hother
    obtain rfl := releasable_reserved hclean hlook hrel
    rw [lookup_reserved] at hlook
    split at hlook
    · next hk =>
        rw [hk, releasable_nonceKey] at hrel
        cases hrel
    · rw [if_pos rfl] at hlook
      obtain rfl := Option.some.inj hlook
      rw [lookup_reserved, if_pos rfl] at hother
      obtain rfl := Option.some.inj hother
      rfl

theorem Tidy.recovered (h : Tidy s) : Tidy s.recovered := by
  refine tidy_of_clean noReservation_recovered ?_
  intro k e hlook hres
  rw [lookup_recovered] at hlook
  split at hlook
  · cases hlook
  · obtain ⟨old, hold, rfl⟩ := Option.map_eq_some_iff.mp hlook
    by_cases hexec : (!hasNoncePrefix k && old.state == some .executing) = true
    · rw [SeenStore.resolveInterrupted, if_pos hexec]
      exact Or.inl rfl
    · rw [SeenStore.resolveInterrupted, if_neg hexec] at hres ⊢
      exact h.settled k old hold hres

theorem Tidy.pruned (h : Tidy s) (hclean : NoReservation s) (now : Int) :
    Tidy (SeenStore.pruned now s) := by
  refine tidy_of_clean hclean.pruned ?_
  intro k e hlook hres
  rw [lookup_pruned, Option.filter_eq_some_iff] at hlook
  exact h.settled k e hlook.1 hres

/-! ## Saves that were reported to fail -/

theorem Behind.restate {state : ExecutionState}
    (hlook : s.lookup key = some entry) (h : ¬ Discharged entry) :
    Behind s (s.insert key { entry with state := some state }) := by
  constructor
  · intro k x hx
    by_cases hk : k = key
    · subst hk
      obtain rfl := Option.some.inj (hlook.symm.trans hx)
      exact ⟨_, AList.lookup_insert s, rfl, fun hd => absurd hd h⟩
    · exact ⟨x, by rw [AList.lookup_insert_ne hk, hx], rfl, fun _ => rfl⟩
  · intro k y hnone hy
    by_cases hk : k = key
    · rw [hk, hlook] at hnone
      cases hnone
    · rw [AList.lookup_insert_ne hk, hnone] at hy
      cases hy

theorem Behind.reserved {id nonce : String} {expiry : Int}
    (hid : s.lookup id = none) (hnonce : s.lookup (nonceKey nonce) = none) :
    Behind s (s.reserved id nonce expiry) := by
  constructor
  · intro k x hx
    exact ⟨x, lookup_reserved_of_some hid hnonce hx, rfl, fun _ => rfl⟩
  · intro k y hnone hy
    rw [lookup_reserved] at hy
    split at hy
    · obtain rfl := Option.some.inj hy
      exact Or.inl rfl
    · split at hy
      · obtain rfl := Option.some.inj hy
        exact Or.inr rfl
      · rw [hnone] at hy
        cases hy

end Maps

/-! ## The discipline -/

/-- What the phase's map has to do with the file. -/
def Stable (disk : SeenStore) : Phase → Prop
  | .down => True
  | .loaded s => s = disk
  | .quiet s => Tidy s ∧ Behind s disk ∧ NoReservation s
  | .reserved s cmd => Tidy s ∧ Behind s disk ∧ ∀ key entry,
    s.lookup key = some entry → SeenStore.releasable key entry = true →
      key = cmd.id
  | .armed s _ => Tidy s ∧ Behind s disk ∧ NoReservation s
  | .ran s _ _ => Tidy s ∧ Behind s disk ∧ NoReservation s

/-- A save keeps what may not leave, an upload carries what the file holds. -/
def KeepsResults (disk : SeenStore) : AgentOp → Prop
  | .save entries => Retains Removable disk entries
  | .report id result => resultIn disk id = some result
  | _ => True

section Discipline

variable {Key : Type} {ed25519Verify : Key → Bytes → Bytes → Bool}
  {sg : Signer ed25519Verify} {w : AgentWorld} {a b : Phase}
  {s disk : SeenStore}

/-- An edit is made on a map that lags behind the file. -/
theorem Stable.behind_edit (h : Stable disk a) (he : Edit sg w a b) :
    Behind a.map disk := by
  cases he with
  | arm => exact h.2.1
  | _ => exact h.2.1

/-- What an edit saves comes after the map it was made on. -/
theorem Stable.edit (h : Stable disk a) (he : Edit sg w a b) :
    Retains Discharged a.map b.map ∧ Tidy b.map ∧ Stable b.map b := by
  cases he with
  | rewrite => exact ⟨.refl, h.1, h.1, .refl, h.2.2⟩
  | @acknowledge s id entry result hlook hstate hresult hacked =>
      have hclean : NoReservation
          (s.insert id { entry with state := some .acknowledged }) :=
        h.2.2.restate (by simp)
      have htidy := h.1.insert hclean fun _ => Or.inr rfl
      exact ⟨.restate hlook, htidy, htidy, .refl, hclean⟩
  | @requeue s id entry result hlook hstate hresult =>
      have hclean : NoReservation
          (s.insert id { entry with state := some .resultPending }) :=
        h.2.2.restate (by simp)
      have htidy := h.1.insert hclean fun _ => Or.inl rfl
      exact ⟨.restate hlook, htidy, htidy, .refl, hclean⟩
  | @reserve s cmd hreceived hsigned hlive hid hnonce =>
      have htidy := h.1.reserved h.2.2 cmd.id cmd.nonce (signedExpiry cmd)
      exact ⟨.reserved hid hnonce, htidy, htidy, .refl,
        fun _ _ => releasable_reserved h.2.2⟩
  | @arm s cmd entry hlook hstate =>
      have hclean : NoReservation
          (s.insert cmd.id { entry with state := some .executing }) :=
        noReservation_insert h.2.2 (by simp)
      have hnone := h.1.unsettled hlook (by simp [hstate]) (by simp [hstate])
      have htidy := h.1.insert hclean fun hres => absurd hnone hres
      exact ⟨.restate hlook, htidy, htidy, .refl, hclean⟩

/-- The file a failed save may have left; a requeued entry would be behind. -/
theorem Stable.resume (h : Stable disk a) (he : Edit sg w a b)
    (hkeeps : KeepsAcked a.map b.map) : Stable b.map a := by
  cases he with
  | rewrite => exact ⟨h.1, .refl, h.2.2⟩
  | acknowledge hlook hstate hresult hacked =>
      exact ⟨h.1, .restate hlook (by simp [Discharged, hstate]), h.2.2⟩
  | @requeue s id entry result hlook hstate hresult =>
      have hsame := hkeeps id entry hlook hstate
      rw [show AList.lookup id (Phase.map (.quiet (s.insert id _))) = _ from
        AList.lookup_insert s] at hsame
      have hpending := congrArg SeenEntry.state (Option.some.inj hsame)
      rw [hstate] at hpending
      cases hpending
  | reserve hreceived hsigned hlive hid hnonce =>
      exact ⟨h.1, .reserved hid hnonce, h.2.2⟩
  | arm hlook hstate =>
      exact ⟨h.1, .restate hlook (by simp [Discharged, hstate]), h.2.2⟩

/-- So does a result that is recorded. -/
theorem Stable.records (h : Stable disk a) (hdisk : Tidy disk)
    (hr : Records w a s) :
    Retains Removable disk s ∧ Tidy s ∧ Stable s (.quiet s) := by
  have recorded : ∀ {m : SeenStore} {cmd : Command} {expiry result},
      Tidy m → Behind m disk → (∀ key entry, m.lookup key = some entry →
        SeenStore.releasable key entry = true → key = cmd.id) →
      Recordable m cmd.id expiry →
      Retains Removable disk (m.recorded cmd.id expiry result) ∧
        Tidy (m.recorded cmd.id expiry result) ∧
        Stable (m.recorded cmd.id expiry result)
          (.quiet (m.recorded cmd.id expiry result)) := by
    intro m cmd expiry result htidy hbehind honly hrec
    have hclean : NoReservation (m.recorded cmd.id expiry result) :=
      noReservation_insert honly (by simp [SeenStore.SeenEntry.withResult])
    have htidy' := htidy.insert hclean fun _ => Or.inl rfl
    exact ⟨hbehind.retains hdisk (.recorded htidy hrec), htidy', htidy', .refl,
      hclean⟩
  have none_only : ∀ {m : SeenStore} {cmd : Command}, NoReservation m →
      ∀ key entry, m.lookup key = some entry →
        SeenStore.releasable key entry = true → key = cmd.id := by
    intro m cmd hclean key entry hlook hrel
    rw [hclean key entry hlook] at hrel
    cases hrel
  cases hr with
  | recover hint =>
      obtain rfl : _ = disk := h
      have htidy := hdisk.recovered
      exact ⟨.recovered hdisk, htidy, htidy, .refl, noReservation_recovered⟩
  | refuse hreceived hrecord =>
      exact recorded h.1 h.2.1 (none_only h.2.2) hrecord
  | abandon hrecord => exact recorded h.1 h.2.1 h.2.2 hrecord
  | record hrecord => exact recorded h.1 h.2.1 (none_only h.2.2) hrecord

theorem Stable.pruned {now : Int} (h : Stable disk (.quiet s))
    (hdisk : Tidy disk) :
    Retains Removable disk (SeenStore.pruned now s) ∧
      Tidy (SeenStore.pruned now s) ∧
      Stable (SeenStore.pruned now s) (.quiet (SeenStore.pruned now s)) := by
  have htidy := h.1.pruned h.2.2 now
  exact ⟨h.2.1.retains hdisk .pruned, htidy, htidy, .refl, h.2.2.pruned⟩

/-- What is in memory and bears a result is in the file with that result. -/
theorem Stable.resultIn_eq {id : String} (h : Stable disk (.quiet s))
    (hdisk : Tidy disk) : resultIn disk id = resultIn s id := by
  cases hs : s.lookup id with
  | some x =>
      obtain ⟨y, hy, hsame, -⟩ := h.2.1.shared id x hs
      rw [resultIn, resultIn, hs, hy]
      exact hsame
  | none =>
      rw [resultIn, resultIn, hs]
      cases hd : disk.lookup id with
      | none => rfl
      | some y =>
          have hst := h.2.1.extra id y hs hd
          exact hdisk.unsettled hd
            (by rcases hst with hst | hst <;> simp [hst])
            (by rcases hst with hst | hst <;> simp [hst])

/-- The agent keeps its results. -/
def keepsResults (sg : Signer ed25519Verify) : Discipline sg where
  holds := fun w ph => Tidy w.disk ∧ Stable w.disk ph
  allows := fun w o => KeepsResults w.disk o
  aside := by
    intro w o ho
    cases o with
    | save entries => exact ho.elim
    | report id result => exact ho.elim
    | _ => trivial
  halt := fun h => ⟨h.1, trivial⟩
  tick := fun h _ => h
  load := fun h => ⟨h.1, rfl⟩
  undisturbed := by
    intro w s h hint
    obtain ⟨htidy, hs⟩ := h
    obtain rfl : s = w.disk := hs
    exact ⟨htidy, htidy, .refl, noReservation_of_not_interrupted hint⟩
  saved := by
    intro w a b h he
    obtain ⟨hretains, htidy, hstable⟩ := h.2.edit he
    exact ⟨(h.2.behind_edit he).retains h.1 hretains, htidy, hstable⟩
  resumed := fun h he hkeeps => ⟨(h.2.edit he).2.1, h.2.resume he hkeeps⟩
  recorded := fun h hr => h.2.records h.1 hr
  pruned := fun h => h.2.pruned h.1
  send := by
    intro w s id entry result h hlook hresult
    refine ⟨?_, h⟩
    show resultIn w.disk id = some result
    rw [h.2.resultIn_eq h.1, resultIn, hlook]
    exact hresult
  answered := fun h _ => h
  beat := fun h => h
  receive := fun h => h
  start := fun h => ⟨h.1, trivial⟩
  finish := fun h => h

end Discipline

/-! ## The results of started commands -/

/-- What a started command's result may be: the output of its execution, or
that its outcome is unknown. -/
def OwnResult (w : AgentWorld) (cmd : Command) (r : CommandResult) : Prop :=
  r = SeenStore.unknownOutcome ∨ ∃ res reading, (cmd, res) ∈ w.finished ∧
    r = CommandResult.completedAt res reading

/-- The entry of a command outlives its expiry and holds its result. -/
def Resolved (w : AgentWorld) (s : SeenStore) (cmd : Command) : Prop :=
  ∃ entry r, s.lookup cmd.id = some entry ∧
    signedExpiry cmd ≤ entry.expiry ∧
    (entry.state = some .resultPending ∨ entry.state = some .acknowledged) ∧
    entry.result = some r ∧ OwnResult w cmd r

/-- The entry of a command outlives its expiry and says it is executing. -/
def Unresolved (s : SeenStore) (cmd : Command) : Prop :=
  ∃ entry, s.lookup cmd.id = some entry ∧
    signedExpiry cmd ≤ entry.expiry ∧ entry.state = some .executing

/-- `P` holds of each started command the agent still answers for. -/
def ForStarted (w : AgentWorld) (P : Command → Prop) : Prop :=
  ∀ cmd ∈ w.started, hasNoncePrefix cmd.id = false →
    wallTime w.clock ≤ signedExpiry cmd → P cmd

/-- What holds of the file at any time. -/
def Accounts (w : AgentWorld) (s : SeenStore) : Prop :=
  ForStarted w fun cmd => Resolved w s cmd ∨ Unresolved s cmd

/-- What holds of the map in memory. -/
def Accounted (w : AgentWorld) : Phase → Prop
  | .down => True
  | .loaded s => Accounts w s
  | .quiet s => ForStarted w (Resolved w s)
  | .reserved s _ => ForStarted w (Resolved w s)
  | .armed s cmd => ForStarted w (Resolved w s) ∧ Unresolved s cmd
  | .ran s cmd res => (cmd, res) ∈ w.finished ∧ Unresolved s cmd ∧
    ForStarted w fun c => c = cmd ∨ Resolved w s c

/-- The invariant, beside the one that protects started commands. -/
def Accountable (sg : Signer ed25519Verify) (c : AgentWorld × Phase) : Prop :=
  Guarded sg c ∧ Accounts c.1 c.1.disk ∧ Accounted c.1 c.2

section Started

variable {w w' : AgentWorld} {s s' : SeenStore} {cmd : Command}
  {P Q : Command → Prop}

theorem ForStarted.mono (h : ForStarted w P) (hpq : ∀ cmd, P cmd → Q cmd) :
    ForStarted w Q := fun cmd hcmd hid hlive => hpq cmd (h cmd hcmd hid hlive)

theorem ForStarted.accounts (h : ForStarted w (Resolved w s)) :
    Accounts w s := h.mono fun _ => Or.inl

/-- The second world is not earlier, with the same commands started and no
execution forgotten. -/
structure Onward (w w' : AgentWorld) : Prop where
  started : w'.started = w.started
  clock : w.clock ≤ w'.clock
  finished : ∀ p ∈ w.finished, p ∈ w'.finished

theorem OwnResult.later {r : CommandResult} (h : OwnResult w cmd r)
    (hf : ∀ p ∈ w.finished, p ∈ w'.finished) : OwnResult w' cmd r := by
  rcases h with hu | ⟨res, reading, hfin, hr⟩
  · exact Or.inl hu
  · exact Or.inr ⟨res, reading, hf _ hfin, hr⟩

theorem Resolved.later (h : Resolved w s cmd)
    (hf : ∀ p ∈ w.finished, p ∈ w'.finished) : Resolved w' s cmd := by
  obtain ⟨entry, r, hlook, hexp, hst, hres, hown⟩ := h
  exact ⟨entry, r, hlook, hexp, hst, hres, hown.later hf⟩

theorem ForStarted.later (h : ForStarted w P) (hw : Onward w w')
    (hpq : ∀ cmd, P cmd → Q cmd) : ForStarted w' Q := by
  intro cmd hcmd hid hlive
  rw [hw.started] at hcmd
  have := wallTime_mono hw.clock
  exact hpq cmd (h cmd hcmd hid (by omega))

theorem Accounts.later (h : Accounts w s) (hw : Onward w w') :
    Accounts w' s :=
  ForStarted.later h hw fun _ hc => hc.imp_left fun hr => hr.later hw.finished

theorem Accounted.later {ph : Phase} (h : Accounted w ph)
    (hw : Onward w w') : Accounted w' ph := by
  have hresolved : ∀ s, ForStarted w (Resolved w s) →
      ForStarted w' (Resolved w' s) := fun s hs =>
    hs.later hw fun _ hr => hr.later hw.finished
  cases ph with
  | down => trivial
  | loaded s => exact Accounts.later h hw
  | quiet s => exact hresolved s h
  | reserved s cmd => exact hresolved s h
  | armed s cmd => exact ⟨hresolved s h.1, h.2⟩
  | ran s cmd res =>
      exact ⟨hw.finished _ h.1, h.2.1, h.2.2.later hw fun _ hc =>
        hc.imp_right fun hr => hr.later hw.finished⟩

/-! ## Updates of the map -/

theorem Resolved.congr (h : Resolved w s cmd)
    (hl : s'.lookup cmd.id = s.lookup cmd.id) : Resolved w s' cmd := by
  obtain ⟨entry, r, hlook, hrest⟩ := h
  exact ⟨entry, r, hl.trans hlook, hrest⟩

/-- A settled entry stays when the state of an entry is set to one that is
settled, or that of an entry that is not is set to any. -/
theorem Resolved.restate {key : String} {entry : SeenEntry}
    {state : ExecutionState} (h : Resolved w s cmd)
    (hlook : s.lookup key = some entry)
    (hstate : entry.state = some .reserved ∨ state = .resultPending ∨
      state = .acknowledged) :
    Resolved w (s.insert key { entry with state := some state }) cmd := by
  by_cases hk : cmd.id = key
  · obtain ⟨old, r, hold, hexp, hst, hres, hown⟩ := h
    rw [hk] at hold
    obtain rfl := Option.some.inj (hlook.symm.trans hold)
    have hset : state = .resultPending ∨ state = .acknowledged := by
      refine hstate.resolve_left fun hreserved => ?_
      rcases hst with hst | hst
      · rw [hreserved] at hst
        cases hst
      · rw [hreserved] at hst
        cases hst
    refine ⟨{ entry with state := some state }, r, ?_, hexp,
      hset.imp (congrArg some) (congrArg some), hres, hown⟩
    rw [hk]
    exact AList.lookup_insert s
  · exact h.congr (AList.lookup_insert_ne hk)

theorem Resolved.reserved {id nonce : String} {expiry : Int}
    (h : Resolved w s cmd) (hid : s.lookup id = none)
    (hnonce : s.lookup (nonceKey nonce) = none) :
    Resolved w (s.reserved id nonce expiry) cmd := by
  obtain ⟨entry, r, hlook, hrest⟩ := h
  exact ⟨entry, r, lookup_reserved_of_some hid hnonce hlook, hrest⟩

/-- Recording touches no entry that is settled. -/
theorem Resolved.recorded {id : String} {expiry : Int}
    {result : CommandResult} (h : Resolved w s cmd)
    (hrec : Recordable s id expiry) :
    Resolved w (s.recorded id expiry result) cmd := by
  refine h.congr (lookup_recorded_ne ?_)
  intro hid
  obtain ⟨entry, r, hlook, -, hst, hres, -⟩ := h
  have hun := hrec.unsettled
  rw [← hid, hlook, Option.getD_some, SeenStore.SeenEntry.settled, hres] at hun
  rcases hst with hst | hst
  · rw [hst] at hun
    cases hun
  · rw [hst] at hun
    cases hun

/-- Pruning waits for the expiry. -/
theorem Resolved.pruned {now : Int} (h : Resolved w s cmd)
    (hlive : now ≤ signedExpiry cmd) :
    Resolved w (SeenStore.pruned now s) cmd := by
  obtain ⟨entry, r, hlook, hexp, hrest⟩ := h
  refine ⟨entry, r, ?_, hexp, hrest⟩
  have hnot : SeenStore.prunable now entry = false := by
    rw [Bool.eq_false_iff]
    intro hp
    have := prunable_expiry hp
    omega
  rw [lookup_pruned, hlook, Option.filter_some, hnot]
  rfl

/-- Recovery gives a result to whatever was interrupted. -/
theorem resolved_recovered (hid : hasNoncePrefix cmd.id = false)
    (hprot : Protects s cmd) (h : Resolved w s cmd ∨ Unresolved s cmd) :
    Resolved w s.recovered cmd := by
  have hl : s.recovered.lookup cmd.id =
      (s.lookup cmd.id).map (SeenStore.resolveInterrupted cmd.id) := by
    rw [lookup_recovered, hprot.not_released.1]
    rfl
  rcases h with ⟨entry, r, hlook, hexp, hst, hres, hown⟩ |
    ⟨entry, hlook, hexp, hst⟩
  · rw [hlook, Option.map_some, SeenStore.resolveInterrupted, if_neg] at hl
    · exact ⟨entry, r, hl, hexp, hst, hres, hown⟩
    · rcases hst with hst | hst <;> simp [hst]
  · rw [hlook, Option.map_some, SeenStore.resolveInterrupted,
      if_pos (by simp [hid, hst])] at hl
    exact ⟨_, _, hl, hexp, Or.inl rfl, rfl, Or.inl rfl⟩

/-- Recording the output of the command whose process has ended. -/
theorem resolved_recorded {res : ExecutionResult} {expiry : Int}
    {reading : Nat} (h : Unresolved s cmd) (hfin : (cmd, res) ∈ w.finished)
    (hlive : zeroTime < signedExpiry cmd) :
    Resolved w (s.recorded cmd.id expiry
      (CommandResult.completedAt res reading)) cmd := by
  obtain ⟨entry, hlook, hexp, -⟩ := h
  refine ⟨_, _, AList.lookup_insert s, ?_, Or.inl rfl, rfl,
    Or.inr ⟨res, reading, hfin, rfl⟩⟩
  rw [hlook, Option.getD_some, SeenStore.SeenEntry.withResult]
  show _ ≤ if _ then _ else _
  rw [if_neg (by omega)]
  exact hexp

end Started

/-! ## The invariant -/

section Invariant

variable {Key : Type} {ed25519Verify : Key → Bytes → Bytes → Bool}
  {sg : Signer ed25519Verify} {w : AgentWorld} {a b : Phase} {s : SeenStore}

/-- An edit is made where every started command is resolved. -/
theorem Accounted.resolved (h : Accounted w a) (he : Edit sg w a b) :
    ForStarted w (Resolved w a.map) := by
  cases he with
  | arm => exact h
  | _ => exact h

theorem resolved_edit {cmd : Command} (h : Resolved w a.map cmd)
    (he : Edit sg w a b) : Resolved w b.map cmd := by
  cases he with
  | rewrite => exact h
  | acknowledge hlook hstate hresult hacked =>
      exact h.restate hlook (Or.inr (Or.inr rfl))
  | requeue hlook hstate hresult =>
      exact h.restate hlook (Or.inr (Or.inl rfl))
  | reserve hreceived hsigned hlive hid hnonce => exact h.reserved hid hnonce
  | arm hlook hstate => exact h.restate hlook (Or.inl hstate)

/-- What an edit saves accounts for the phase it leads to. -/
theorem accounted_edit (hg : Guarded sg (w, a)) (h : Accounted w a)
    (he : Edit sg w a b) :
    Accounts w b.map ∧ Accounted (w.replaceFile b.map) b := by
  have hresolved : ForStarted w (Resolved w b.map) :=
    (h.resolved he).mono fun _ hr => resolved_edit hr he
  refine ⟨hresolved.accounts, ?_⟩
  cases he with
  | @arm s cmd entry hlook hstate =>
      obtain ⟨-, -, -, ⟨old, hold, hexp⟩, -⟩ := hg
      obtain rfl := Option.some.inj (hlook.symm.trans hold)
      exact ⟨hresolved, _, AList.lookup_insert s, hexp, rfl⟩
  | _ => exact hresolved

theorem resolved_records (hg : Guarded sg (w, a)) (h : Accounted w a)
    (hr : Records w a s) : ForStarted w (Resolved w s) := by
  cases hr with
  | recover hint =>
      intro cmd hcmd hid hlive
      rcases hg.2 cmd hcmd with hexpired | hprot
      · have : signedExpiry cmd < wallTime w.clock := hexpired
        omega
      · exact resolved_recovered hid hprot (h cmd hcmd hid hlive)
  | refuse hreceived hrecord =>
      exact ForStarted.mono h fun _ hc => hc.recorded hrecord
  | abandon hrecord =>
      exact ForStarted.mono h fun _ hc => hc.recorded hrecord
  | record hrecord =>
      obtain ⟨hfin, hun, hrest⟩ := h
      intro c hc hid hlive
      rcases hrest c hc hid hlive with rfl | hres
      · exact resolved_recorded hun hfin (hg.1.live c hc)
      · exact hres.recorded hrecord

/-- Nothing is executing in a file no crash has interrupted. -/
theorem resolved_undisturbed (h : Accounts w s)
    (hint : s.interrupted = false) : ForStarted w (Resolved w s) := by
  intro cmd hcmd hid hlive
  refine (h cmd hcmd hid hlive).resolve_right ?_
  rintro ⟨entry, hlook, -, hst⟩
  exact not_executing_of_not_interrupted hint hid ⟨entry, hlook, hst⟩

theorem onward_replaceFile : Onward w (w.replaceFile s) :=
  ⟨rfl, le_rfl, fun _ hp => hp⟩

/-- A step that starts nothing and leaves the file alone. -/
theorem Accountable.later {w' : AgentWorld} (h : Accountable sg (w, a))
    (hg : Guarded sg (w', a)) (hw : Onward w w') (hd : w'.disk = w.disk) :
    Accountable sg (w', a) := by
  refine ⟨hg, ?_, h.2.2.later hw⟩
  show Accounts w' w'.disk
  rw [hd]
  exact h.2.1.later hw

theorem accountable_step (c c' : AgentWorld × Phase) (h : Accountable sg c)
    (hs : Protocol.Step sg c c') : Accountable sg c' := by
  have hg' := guarded_step c c' h.1 hs
  obtain ⟨hg, hdisk, hph⟩ := h
  cases hs with
  | tick hr =>
      exact Accountable.later ⟨hg, hdisk, hph⟩ hg'
        ⟨rfl, hr, fun _ hp => hp⟩ rfl
  | halt => exact ⟨hg', hdisk, trivial⟩
  | load => exact ⟨hg', hdisk, hdisk⟩
  | undisturbed hint => exact ⟨hg', hdisk, resolved_undisturbed hph hint⟩
  | saved he =>
      obtain ⟨hb, hph'⟩ := accounted_edit hg hph he
      exact ⟨hg', hb.later onward_replaceFile, hph'⟩
  | unsaved he =>
      have hb := (accounted_edit hg hph he).1
      exact ⟨hg', hb.later onward_replaceFile, hph.later onward_replaceFile⟩
  | @recorded w a s hr =>
      have hres := resolved_records hg hph hr
      have hres' : ForStarted (w.replaceFile s) (Resolved (w.replaceFile s) s) :=
        hres.later onward_replaceFile fun _ hc => hc.later fun _ hp => hp
      exact ⟨hg', hres'.accounts, hres'⟩
  | unrecorded hr =>
      have hres := resolved_records hg hph hr
      exact ⟨hg', hres.accounts.later onward_replaceFile, trivial⟩
  | prune =>
      refine ⟨hg', hdisk, ?_⟩
      intro cmd hcmd hid hlive
      exact (hph cmd hcmd hid hlive).pruned hlive
  | send => exact ⟨hg', hdisk, hph⟩
  | answered =>
      exact Accountable.later ⟨hg, hdisk, hph⟩ hg'
        ⟨rfl, le_rfl, fun _ hp => hp⟩ rfl
  | beat => exact ⟨hg', hdisk, hph⟩
  | receive =>
      exact Accountable.later ⟨hg, hdisk, hph⟩ hg'
        ⟨rfl, le_rfl, fun _ hp => hp⟩ rfl
  | @start w s cmd =>
      obtain ⟨-, -, -, -, -, hfile⟩ := hg
      refine ⟨hg', ?_, trivial⟩
      intro c hc hid hlive
      rcases List.mem_cons.mp hc with rfl | hc
      · right
        rw [show (w.start c).disk = s from hfile]
        exact hph.2
      · exact hdisk c hc hid hlive
  | @finish w s cmd res =>
      obtain ⟨-, -, -, -, -, hfile⟩ := hg
      have hmore : ∀ p ∈ w.finished, p ∈ (w.finish cmd res).finished :=
        fun _ hp => List.mem_cons_of_mem _ hp
      refine ⟨hg', ?_, List.mem_cons_self, hph.2, ?_⟩
      · intro c hc hid hlive
        rcases List.mem_cons.mp hc with rfl | hc
        · right
          rw [show (w.finish c res).disk = s from hfile]
          exact hph.2
        · exact (hdisk c hc hid hlive).imp_left fun hr => hr.later hmore
      · intro c hc hid hlive
        rcases List.mem_cons.mp hc with rfl | hc
        · exact Or.inl rfl
        · exact Or.inr ((hph.1 c hc hid hlive).later hmore)

theorem accountable_run {w w' : AgentWorld} {ph : Phase}
    (h : w.started = []) (hr : Protocol.Run sg (w, .down) (w', ph)) :
    Accountable sg (w', ph) := by
  refine invariant_of_steps accountable_step ⟨guarded_init h, ?_, trivial⟩ hr
  intro cmd hcmd
  rw [show (w, Phase.down).1.started = [] from h] at hcmd
  cases hcmd

/-! ## Whole runs -/

/-- What a step does to the file and to the uploads. -/
structure Effect (w w' : AgentWorld) : Prop where
  disk : Retains Removable w.disk w'.disk
  sent : w'.sent = w.sent ∨ ∃ id r, resultIn w.disk id = some r ∧
    w'.sent = (id, r) :: w.sent

theorem Effect.refl : Effect w w := ⟨.refl, Or.inl rfl⟩

theorem effect_does {w' : AgentWorld} {o : AgentOp} {answer : o.Ans Key}
    (h : KeepsResults w.disk o) (hd : agentDoes sg.trusts w o answer w') :
    Effect w w' := by
  cases o with
  | now =>
      obtain ⟨-, rfl⟩ := hd
      exact ⟨.refl, Or.inl rfl⟩
  | identity =>
      obtain ⟨-, rfl⟩ := hd
      exact .refl
  | load =>
      obtain ⟨-, rfl⟩ := hd
      exact .refl
  | save entries =>
      rcases hd with rfl | ⟨-, rfl⟩
      · exact ⟨h, Or.inl rfl⟩
      · exact .refl
  | heartbeat notices =>
      cases answer with
      | failed =>
          obtain rfl : w' = _ := hd
          exact ⟨.refl, Or.inl rfl⟩
      | quarantined =>
          obtain rfl : w' = _ := hd
          exact ⟨.refl, Or.inl rfl⟩
      | ok keys cmds =>
          obtain ⟨-, rfl⟩ := hd
          exact ⟨.refl, Or.inl rfl⟩
  | report id result =>
      obtain rfl : w' = _ := hd
      split
      · exact ⟨.refl, Or.inr ⟨id, result, h, rfl⟩⟩
      · exact ⟨.refl, Or.inr ⟨id, result, h, rfl⟩⟩
  | execute cmd =>
      obtain rfl : w' = _ := hd
      exact ⟨.refl, Or.inl rfl⟩

theorem effect_torn {w' : AgentWorld} {o : AgentOp}
    (h : KeepsResults w.disk o) (ht : agentTorn w o w') : Effect w w' := by
  cases o with
  | now => exact ht.elim
  | identity => exact ht.elim
  | load => exact ht.elim
  | save entries =>
      obtain rfl : w' = _ := ht
      exact ⟨h, Or.inl rfl⟩
  | heartbeat notices =>
      obtain rfl : w' = _ := ht
      exact ⟨.refl, Or.inl rfl⟩
  | report id result =>
      obtain rfl : w' = _ := ht
      exact ⟨.refl, Or.inr ⟨id, result, h, rfl⟩⟩
  | execute cmd =>
      obtain rfl : w' = _ := ht
      exact ⟨.refl, Or.inl rfl⟩

/-- A step of the agent, anywhere in a run. -/
theorem effect_step {w₀ : AgentWorld}
    {c c' : AgentWorld × Proc AgentOp (AgentOp.Ans Key) (Session Key)}
    (htidy : Tidy w₀.disk) (hrun : AgentRun sg (w₀, .down) c)
    (hs : (agentMachine ed25519Verify).Step (agentWorld sg.trusts) c c') :
    Effect c.1 c'.1 := by
  have hgood := disciplined_run (D := keepsResults sg) ⟨htidy, trivial⟩ hrun
  cases hs with
  | boot => exact .refl
  | start => exact .refl
  | settle => exact .refl
  | stop => exact .refl
  | crash => exact .refl
  | act hd => exact effect_does hgood.guard hd
  | tear ht => exact effect_torn hgood.guard ht

/-- Any number of steps, all of which leave the file an entry for `id`. -/
def RunKeeping (sg : Signer ed25519Verify) (id : String) :
    AgentWorld × Proc AgentOp (AgentOp.Ans Key) (Session Key) →
      AgentWorld × Proc AgentOp (AgentOp.Ans Key) (Session Key) → Prop :=
  Relation.ReflTransGen fun c c' =>
    (agentMachine ed25519Verify).Step (agentWorld sg.trusts) c c' ∧
      c'.1.disk.has id = true

/-- A result stays in the file, and in the uploads, as long as its entry. -/
theorem runKeeping_stable {w₀ : AgentWorld} {id : String} {r : CommandResult}
    {c c' : AgentWorld × Proc AgentOp (AgentOp.Ans Key) (Session Key)}
    (htidy : Tidy w₀.disk) (hrun : AgentRun sg (w₀, .down) c)
    (hres : resultIn c.1.disk id = some r) (hkeep : RunKeeping sg id c c') :
    AgentRun sg (w₀, .down) c' ∧ resultIn c'.1.disk id = some r ∧
      ∃ uploads, c'.1.sent = uploads ++ c.1.sent ∧
        ∀ r', (id, r') ∈ uploads → r' = r := by
  induction hkeep with
  | refl =>
      exact ⟨hrun, hres, [], rfl, fun _ h => absurd h List.not_mem_nil⟩
  | tail _ hs ih =>
      obtain ⟨hreach, hheld, uploads, hsent, hsame⟩ := ih
      obtain ⟨hstep, hhas⟩ := hs
      have heffect := effect_step htidy hreach hstep
      refine ⟨hreach.tail hstep, ?_, ?_⟩
      · rw [resultIn, Option.bind_eq_some_iff] at hheld
        obtain ⟨entry, hlook, hentry⟩ := hheld
        refine (heffect.disk.results id entry r hlook hentry).resolve_left ?_
        intro hnone
        rw [SeenStore.has, hnone] at hhas
        cases hhas
      · rcases heffect.sent with hs | ⟨key, r', hr', hs⟩
        · exact ⟨uploads, hs.trans hsent, hsame⟩
        · refine ⟨(key, r') :: uploads, by rw [hs, hsent]; rfl, ?_⟩
          intro r'' hmem
          rcases List.mem_cons.mp hmem with heq | hmem
          · obtain ⟨rfl, rfl⟩ := Prod.mk.inj heq
            exact Option.some.inj (hr'.symm.trans hheld)
          · exact hsame r'' hmem

/-- Result stability, from any journal the agent may have left behind. A
result the file holds is carried by every upload until its entry leaves the
file. Whenever the process is idle, as after every restart, each started
command with an ordinary id and an unexpired signature has its own output or
the unknown-outcome result. Only acknowledged entries, replay keys without a
state and reservations nothing was started for ever leave the file. -/
theorem journal_results_stable {disk : SeenStore} {clock : Nat}
    (htidy : Tidy disk) :
    (∀ c c' id r,
      AgentRun sg ({ disk := disk, clock := clock }, .down) c →
      resultIn c.1.disk id = some r → RunKeeping sg id c c' →
      resultIn c'.1.disk id = some r ∧
        ∃ uploads, c'.1.sent = uploads ++ c.1.sent ∧
          ∀ r', (id, r') ∈ uploads → r' = r) ∧
    (∀ w sess cmd,
      AgentRun sg ({ disk := disk, clock := clock }, .down) (w, .idle sess) →
      cmd ∈ w.started → hasNoncePrefix cmd.id = false →
      wallTime w.clock ≤ signedExpiry cmd →
      ∃ r, resultIn w.disk cmd.id = some r ∧
        resultIn sess.seen cmd.id = some r ∧ OwnResult w cmd r) ∧
    (∀ c c' key entry,
      AgentRun sg ({ disk := disk, clock := clock }, .down) c →
      (agentMachine ed25519Verify).Step (agentWorld sg.trusts) c c' →
      c.1.disk.lookup key = some entry → c'.1.disk.lookup key = none →
      Removable entry) := by
  refine ⟨?_, ?_, ?_⟩
  · intro c c' id r hrun hres hkeep
    exact (runKeeping_stable htidy hrun hres hkeep).2
  · intro w sess cmd hrun hcmd hid hlive
    obtain ⟨-, -, hph⟩ := accountable_run rfl
      ((agentRun_refines hrun).2 sess rfl)
    obtain ⟨entry, r, hlook, -, -, hres, hown⟩ := hph cmd hcmd hid hlive
    have hseen : resultIn sess.seen cmd.id = some r := by
      rw [resultIn, hlook]
      exact hres
    have hgood := disciplined_run (D := keepsResults sg) ⟨htidy, trivial⟩ hrun
    obtain ⟨⟨hdisk, hstable⟩, -⟩ := hgood
    exact ⟨r, (hstable.resultIn_eq hdisk).trans hseen, hseen, hown⟩
  · intro c c' key entry hrun hs hlook hnone
    exact (effect_step htidy hrun hs).disk.drops key entry hlook hnone

end Invariant

theorem journal_results_stable_sample :
    ∃ r, resultIn (sampleTurn (sampleTurn (sampleStart, none))).1.disk "c-1" =
        some r ∧
      OwnResult (sampleTurn (sampleTurn (sampleStart, none))).1 sampleCommand
        r := by
  have hrun := (agentRun_sampleTurn (sampleStart, none)).trans
    (agentRun_sampleTurn _)
  have hfacts : ((sampleTurn (sampleTurn (sampleStart, none))).2.isSome
      && decide (sampleCommand ∈
        (sampleTurn (sampleTurn (sampleStart, none))).1.started)
      && decide (wallTime (sampleTurn (sampleTurn (sampleStart, none))).1.clock
        ≤ signedExpiry sampleCommand)) = true := by decide +kernel
  simp only [Bool.and_eq_true, decide_eq_true_eq] at hfacts
  obtain ⟨⟨hsome, hstarted⟩, hlive⟩ := hfacts
  obtain ⟨sess, hsess⟩ := Option.isSome_iff_exists.mp hsome
  rw [hsess] at hrun
  obtain ⟨r, hdisk, -, hown⟩ :=
    (journal_results_stable tidy_empty).2.1 _ sess sampleCommand hrun hstarted
      (by decide +kernel) hlive
  exact ⟨r, hdisk, hown⟩

/-! ## Two runs that keep less

A beat that finds something expired is about to save the pruned map; and a
process whose saves fail leaves the execution of its command unresolved.
-/

theorem beat_prunes {Key : Type} {ed25519Verify : Key → Bytes → Bytes → Bool}
    {sess : Session Key} {reading : Nat}
    (hp : sess.seen.entries.any
      (fun e => SeenStore.prunable (wallTime reading) e.2) = true) :
    ∃ k, beat ed25519Verify sess = .act .now k ∧ ∃ k', k reading =
      .act (.save (SeenStore.pruned (wallTime reading) sess.seen)) k' := by
  refine ⟨_, rfl, ?_⟩
  show ∃ k', Prog.bind (Prog.bind (ite _ _ _) _) _ = _
  rw [if_pos hp]
  exact ⟨_, rfl⟩

theorem agentRun_prune {Key : Type} {ed25519Verify : Key → Bytes → Bytes → Bool}
    {sg : Signer ed25519Verify} {w : AgentWorld} {sess : Session Key}
    {c : AgentWorld × Proc AgentOp (AgentOp.Ans Key) (Session Key)}
    {reading : Nat} (hrun : AgentRun sg c (w, .idle sess))
    (hfile : sess.seen = w.disk) (hr : w.clock ≤ reading)
    (hp : sess.seen.entries.any
      (fun e => SeenStore.prunable (wallTime reading) e.2) = true) :
    ∃ w' k, AgentRun sg c
        (w', .busy (.act
          (.save (SeenStore.pruned (wallTime w'.clock) w'.disk)) k)) ∧
      w'.disk = w.disk ∧ w'.clock = reading := by
  obtain ⟨k, hbeat, k', hk⟩ := @beat_prunes _ ed25519Verify _ _ hp
  refine ⟨w.tick reading, k', ?_, rfl, rfl⟩
  have hstart : AgentRun sg c (w, .busy (.act .now k)) :=
    hrun.tail (.start hbeat.symm)
  rw [hfile] at hk
  exact hk ▸ hstart.tail (.act ⟨hr, rfl⟩)

/-- The same world, but no save goes through once a process has started. -/
def stuckScript {Key : Type} (trusts : TrustedKeys Key → Prop)
    (keys : { k : TrustedKeys Key // trusts k }) (agentID : String)
    (cmds : List Command) (res : ExecutionResult) :
    Script (agentWorld trusts) where
  answer := fun w o =>
    match o with
    | .save entries =>
      if w.started.isEmpty then (true, w.replaceFile entries) else (false, w)
    | o => (fairScript trusts keys agentID cmds res).answer w o
  covers := fun _ => True
  closed := fun _ _ _ => trivial
  lawful := by
    intro w o h
    cases o with
    | save entries =>
        by_cases hs : w.started.isEmpty = true
        · simp only [if_pos hs]
          exact Or.inl rfl
        · simp only [if_neg hs]
          exact Or.inr ⟨rfl, rfl⟩
    | now | identity | load | heartbeat | report | execute =>
        exact (fairScript trusts keys agentID cmds res).lawful w _ h

/-- A command whose id reads like a nonce key. -/
def nonceLikeCommand : Command := { sampleCommand with id := "nonce:c-1" }

def nonceLikeMessage : Bytes :=
  ((canonicalCommandBytes (nonceLikeCommand.envelope "a-1" [])).toOption).getD []

def stuckTurn : AgentWorld × Option (Session Unit) →
    AgentWorld × Option (Session Unit) :=
  (stuckScript (Signer.ofMessage nonceLikeMessage).trusts
    ⟨⟨(), []⟩, ofMessage_trusts _⟩ "a-1" [nonceLikeCommand]
      { exitCode := 0 }).turn
    (agentMachine (verifiesOnly nonceLikeMessage))
    (beat (verifiesOnly nonceLikeMessage))

theorem agentRun_stuckTurn (c : AgentWorld × Option (Session Unit)) :
    AgentRun (Signer.ofMessage nonceLikeMessage) (c.1, .ofOption c.2)
      ((stuckTurn c).1, .ofOption (stuckTurn c).2) :=
  Script.run_turn _ (fun _ => rfl) trivial

/-- Twenty minutes after the clock's start. -/
def laterReading : Nat := 20 * 60 * 1000000000

def sampleNonceKey : String := nonceKey sampleCommand.nonce

/-- The first turns leave the session that is idle with the file's map, which
holds a replay key that is due for pruning. -/
theorem sampleTurn_replayKey :
    ((sampleTurn (sampleTurn (sampleStart, none))).2.any fun sess =>
      decide (sess.seen.entries =
        (sampleTurn (sampleTurn (sampleStart, none))).1.disk.entries)
        && (sess.seen.lookup sampleNonceKey).any (fun entry =>
          decide (entry.state ≠ some .acknowledged))
        && sess.seen.entries.any (fun e =>
          SeenStore.prunable (wallTime laterReading) e.2)
        && ((SeenStore.pruned (wallTime laterReading) sess.seen).lookup
          sampleNonceKey).isNone) = true := by
  decide +kernel

theorem stuckTurn_unresolved :
    ((stuckTurn (stuckTurn (stuckTurn (sampleStart, none)))).2.isSome
      && decide ((stuckTurn (stuckTurn (stuckTurn (sampleStart, none)))).1.started
        = [nonceLikeCommand])
      && decide (wallTime (stuckTurn (stuckTurn (stuckTurn
          (sampleStart, none)))).1.clock ≤ signedExpiry nonceLikeCommand)
      && (resultIn (stuckTurn (stuckTurn (stuckTurn (sampleStart, none)))).1.disk
        nonceLikeCommand.id).isNone) = true := by
  decide +kernel

/-- Two runs in which more is promised than is kept. A replay key, never
acknowledged, is pruned from the file; and a started command whose id reads
like a replay key has no result after a restart. -/
theorem journal_results_unstable :
    (∃ w k entry, AgentRun (Signer.ofMessage sampleMessage) (sampleStart, .down)
        (w, .busy (.act
          (.save (SeenStore.pruned (wallTime w.clock) w.disk)) k)) ∧
      w.disk.lookup sampleNonceKey = some entry ∧
      entry.state ≠ some .acknowledged ∧
      (SeenStore.pruned (wallTime w.clock) w.disk).lookup sampleNonceKey =
        none) ∧
    ∃ w sess, AgentRun (Signer.ofMessage nonceLikeMessage) (sampleStart, .down)
        (w, .idle sess) ∧ nonceLikeCommand ∈ w.started ∧
      wallTime w.clock ≤ signedExpiry nonceLikeCommand ∧
      resultIn w.disk nonceLikeCommand.id = none := by
  constructor
  · have hrun := (agentRun_sampleTurn (sampleStart, none)).trans
      (agentRun_sampleTurn _)
    have hfacts := sampleTurn_replayKey
    have hclock : (sampleTurn (sampleTurn (sampleStart, none))).1.clock ≤
        laterReading := by decide +kernel
    cases hsess : (sampleTurn (sampleTurn (sampleStart, none))).2 with
    | none =>
        rw [hsess] at hfacts
        cases hfacts
    | some sess =>
        rw [hsess] at hrun hfacts
        simp only [Option.any_some, Bool.and_eq_true, decide_eq_true_eq,
          Option.isNone_iff_eq_none, Option.any_eq_true] at hfacts
        obtain ⟨⟨⟨hentries, entry, hlook, hstate⟩, hdue⟩, hgone⟩ := hfacts
        have hfile := AList.ext hentries
        obtain ⟨w', k, hprune, hdisk, hreading⟩ :=
          agentRun_prune hrun hfile hclock hdue
        rw [hfile, ← hdisk] at hlook hgone
        rw [← hreading] at hgone
        exact ⟨w', k, entry, hprune, hlook, hstate, hgone⟩
  · have hrun := ((agentRun_stuckTurn (sampleStart, none)).trans
      (agentRun_stuckTurn _)).trans (agentRun_stuckTurn _)
    have hfacts := stuckTurn_unresolved
    simp only [Bool.and_eq_true, decide_eq_true_eq,
      Option.isNone_iff_eq_none] at hfacts
    obtain ⟨⟨⟨hsome, hstarted⟩, hlive⟩, hnone⟩ := hfacts
    obtain ⟨sess, hsess⟩ := Option.isSome_iff_exists.mp hsome
    rw [hsess] at hrun
    exact ⟨_, sess, hrun, by rw [hstarted]; exact List.mem_singleton_self _,
      hlive, hnone⟩

end NodeLink.Proofs
