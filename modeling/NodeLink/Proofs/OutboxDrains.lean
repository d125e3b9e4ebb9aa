import NodeLink.Proofs.AgentDiscipline
import NodeLink.Proofs.AtMostOnce
import NodeLink.Proofs.RecordedResults
import NodeLink.Server.AnsweredCheckIns

/-!
# When the outbox drains

An entry waits in the outbox until the server answers its upload with
success: a definitive refusal leaves it there, and an id that reads like a
nonce key is never uploaded at all. So a journal drains over a number of
answered check-ins exactly when each entry that waits is one the server
takes in one of them; only then is what has expired pruned.
-/

namespace NodeLink.Proofs

open Lib Agent Server

/-- No entry waits for its result to be acknowledged. -/
def Drained (s : SeenStore) : Prop :=
  ∀ id entry, s.lookup id = some entry → entry.state ≠ some .resultPending

/-- The upload of a waiting entry would be answered with success. -/
def uploadable (agentID : String) (sv : ServerState) (id : String)
    (entry : SeenEntry) : Bool :=
  !hasNoncePrefix id && entry.result.any fun r => sv.takes agentID id r

/-- What an answered upload makes of an entry. -/
def uploaded (agentID : String) (sv : ServerState) (id : String)
    (entry : SeenEntry) : SeenEntry :=
  if entry.state = some .resultPending ∧ uploadable agentID sv id entry = true
  then { entry with state := some .acknowledged } else entry

/-! ## The outbox -/

section Outbox

variable {s : SeenStore} {id : String} {r : CommandResult}

theorem nodup_pendingResults (s : SeenStore) :
    (s.pendingResults.map Prod.fst).Nodup := by
  have hsub : ((s.entries.filterMap SeenStore.pendingOf).map Prod.fst).Sublist
      (s.entries.map Sigma.fst) := by
    induction s.entries with
    | nil => exact List.Sublist.refl _
    | cons e l ih =>
        rw [List.filterMap_cons, List.map_cons]
        cases hp : SeenStore.pendingOf e with
        | none => exact ih.cons _
        | some p =>
            have hkey : p.1 = e.1 := by
              rw [SeenStore.pendingOf] at hp
              split at hp
              · cases hp
              · obtain ⟨r, -, rfl⟩ := Option.map_eq_some_iff.mp hp
                rfl
            rw [List.map_cons, hkey]
            exact ih.cons_cons _
  have hperm := (List.perm_insertionSort
    (fun a b : String × CommandResult => keyLe a.1 b.1)
    (s.entries.filterMap SeenStore.pendingOf)).map Prod.fst
  exact hperm.nodup_iff.mpr (hsub.nodup s.nodupKeys)

end Outbox

/-! ## Answered programs -/

section Answered

variable {Key : Type} (agentID : String) (hands : List Command → Prop)
  (reading : Nat)

/-- `p`, every action answered, ends in `Q`. -/
abbrev WithAnswers {α : Type} (p : AgentProg Key α) (sv : ServerState)
    (Q : α → ServerState → Prop) : Prop :=
  wp (answeredWorld agentID hands reading) (fun _ _ => True) (fun _ => True) Q
    p sv

variable {agentID hands reading} {sv sv' : ServerState} {s : SeenStore}
  {id : String} {r : CommandResult}

theorem withAnswers_act {α : Type} {o : AgentOp}
    {k : o.Ans Key → AgentProg Key α} {Q : α → ServerState → Prop}
    (h : ∀ a sv', answeredDoes agentID hands reading sv o a sv' →
      WithAnswers agentID hands reading (k a) sv' Q) :
    WithAnswers agentID hands reading (.act o k) sv Q :=
  wp_act.mpr ⟨trivial, trivial, fun _ ht => ht.elim, h⟩

/-- Any program ends somehow. -/
theorem withAnswers_true {α : Type} (p : AgentProg Key α) :
    WithAnswers agentID hands reading p sv fun _ _ => True := by
  induction p generalizing sv with
  | pure a => trivial
  | act o k ih => exact withAnswers_act fun a sv' _ => ih a

/-- Every save goes through. -/
theorem withAnswers_mutateAndSave {after : SeenStore}
    {Q : Bool × SeenStore → ServerState → Prop} (h : Q (true, after) sv) :
    WithAnswers agentID hands reading
      (SeenStore.mutateAndSave s after : AgentProg Key _) sv Q := by
  refine withAnswers_act ?_
  rintro ok sv' ⟨rfl, rfl⟩
  exact h

theorem takes_congr (hl : sv'.table.lookup id = sv.table.lookup id)
    (ht : sv'.trust = sv.trust) :
    sv'.takes agentID id r = sv.takes agentID id r := by
  rw [ServerState.takes, ServerState.takes, hl, ht]

/-! ## Flushing -/

/-- What flushing a list of results leaves: those the server takes are
acknowledged, and nothing else changes. -/
structure Flushes (agentID : String) (l : List (String × CommandResult))
    (s : SeenStore) (sv : ServerState) (s' : SeenStore) (sv' : ServerState) :
    Prop where
  trust : sv'.trust = sv.trust
  taken : ∀ id r, (id, r) ∈ l → sv.takes agentID id r = true →
    s'.lookup id = (s.lookup id).map fun e =>
      { e with state := some .acknowledged }
  kept : ∀ id, (∀ r, (id, r) ∈ l → sv.takes agentID id r = false) →
    s'.lookup id = s.lookup id ∧ sv'.table.lookup id = sv.table.lookup id

theorem flushes_nil : Flushes agentID [] s sv s sv :=
  ⟨rfl, fun _ _ h => absurd h List.not_mem_nil, fun _ _ => ⟨rfl, rfl⟩⟩

/-- The next result is refused: the server is as it was. -/
theorem Flushes.refused {l : List (String × CommandResult)} {s' : SeenStore}
    (h : Flushes agentID l s sv s' sv')
    (hr : sv.takes agentID id r = false) :
    Flushes agentID ((id, r) :: l) s sv s' sv' := by
  refine ⟨h.trust, ?_, ?_⟩
  · intro id' r' hmem htakes
    rcases List.mem_cons.mp hmem with heq | hmem
    · obtain ⟨rfl, rfl⟩ := Prod.mk.inj heq
      rw [hr] at htakes
      cases htakes
    · exact h.taken id' r' hmem htakes
  · intro id' hnone
    exact h.kept id' fun r' hmem => hnone r' (List.mem_cons_of_mem _ hmem)

/-- The next result is taken: its entry is acknowledged and its row holds
it; the rest is as it was. -/
theorem Flushes.accepted {l : List (String × CommandResult)} {s' : SeenStore}
    {sv₁ : ServerState} {entry : SeenEntry}
    (h : Flushes agentID l
      (s.insert id { entry with state := some .acknowledged }) sv₁ s' sv')
    (hr : sv.takes agentID id r = true) (hlook : s.lookup id = some entry)
    (hfresh : ∀ r', (id, r') ∉ l) (ht : sv₁.trust = sv.trust)
    (htable : ∀ id', id' ≠ id →
      sv₁.table.lookup id' = sv.table.lookup id') :
    Flushes agentID ((id, r) :: l) s sv s' sv' := by
  have htakes : ∀ id' r', id' ≠ id →
      sv₁.takes agentID id' r' = sv.takes agentID id' r' := fun id' r' hne =>
    takes_congr (htable id' hne) ht
  refine ⟨h.trust.trans ht, ?_, ?_⟩
  · intro id' r' hmem htaken
    rcases List.mem_cons.mp hmem with heq | hmem
    · obtain ⟨rfl, rfl⟩ := Prod.mk.inj heq
      rw [(h.kept id' fun r'' hm => absurd hm (hfresh r'')).1,
        AList.lookup_insert, hlook]
      rfl
    · have hne : id' ≠ id := by
        intro heq
        exact hfresh r' (heq ▸ hmem)
      rw [h.taken id' r' hmem ((htakes id' r' hne).trans htaken),
        AList.lookup_insert_ne hne]
  · intro id' hnone
    have hne : id' ≠ id := by
      intro heq
      have hfalse := hnone r (heq ▸ List.mem_cons_self)
      rw [heq, hr] at hfalse
      cases hfalse
    obtain ⟨hs, htab⟩ := h.kept id' fun r' hmem =>
      (htakes id' r' hne).trans (hnone r' (List.mem_cons_of_mem _ hmem))
    rw [hs, htab, AList.lookup_insert_ne hne]
    exact ⟨rfl, htable id' hne⟩

theorem submitted_of_refused {now : Int}
    (h : sv.takes agentID id r = false) :
    sv.submitted id r (submitResult agentID sv.trust now id
      (ResultBody.ofWire r) sv.table) = sv := by
  have hno : (submitResult agentID sv.trust now id (ResultBody.ofWire r)
      sv.table).1 ≠ .noContent := by
    intro hok
    rw [submitResult_noContent_iff, h] at hok
    cases hok
  have htable : (submitResult agentID sv.trust now id (ResultBody.ofWire r)
      sv.table).2 = sv.table := submitResult_refused hno
  rw [ServerState.submitted, if_neg hno, htable]

theorem withAnswers_flushLoop {l : List (String × CommandResult)}
    {out : Outcome} (hnodup : (l.map Prod.fst).Nodup)
    (hl : ∀ id r, (id, r) ∈ l → ∃ entry, s.lookup id = some entry ∧
      entry.state = some .resultPending ∧ entry.result = some r) :
    WithAnswers agentID hands reading (flushLoop l s out : AgentProg Key _) sv
      fun x sv' => Flushes agentID l s sv x.2 sv' := by
  induction l generalizing s sv out with
  | nil => exact flushes_nil
  | cons p l ih =>
      obtain ⟨id, r⟩ := p
      obtain ⟨entry, hlook, hstate, hres⟩ := hl id r List.mem_cons_self
      rw [List.map_cons, List.nodup_cons] at hnodup
      have hfresh : ∀ r', (id, r') ∉ l := fun r' hmem =>
        hnodup.1 (List.mem_map.mpr ⟨_, hmem, rfl⟩)
      refine withAnswers_act ?_
      rintro ok sv₁ ⟨hok, now, rfl⟩
      cases htakes : sv.takes agentID id r with
      | true =>
          rw [htakes] at hok
          subst hok
          have hack : (s.acknowledge id : AgentProg Key _) =
              SeenStore.mutateAndSave s
                (s.insert id { entry with state := some .acknowledged }) := by
            rw [SeenStore.acknowledge, hlook]
            exact if_neg (by simp [hstate, hres])
          show WithAnswers agentID hands reading (s.acknowledge id >>= _) _ _
          rw [hack]
          refine wp_bind.mpr (withAnswers_mutateAndSave ?_)
          refine wp_mono (ih hnodup.2 ?_) ?_
          · intro id' r' hmem
            obtain ⟨e, he, hrest⟩ := hl id' r' (List.mem_cons_of_mem _ hmem)
            refine ⟨e, ?_, hrest⟩
            rw [AList.lookup_insert_ne, he]
            intro heq
            exact hfresh r' (heq ▸ hmem)
          · intro x sv₂ hflush
            exact hflush.accepted htakes hlook hfresh rfl fun id' hne =>
              submitResult_lookup_ne hne
      | false =>
          rw [htakes] at hok
          subst hok
          rw [submitted_of_refused htakes]
          refine wp_mono (ih hnodup.2 fun id' r' hmem =>
            hl id' r' (List.mem_cons_of_mem _ hmem)) ?_
          intro x sv₂ hflush
          exact hflush.refused htakes

/-- What flushing the outbox leaves. -/
structure FlushesOutbox (agentID : String) (s : SeenStore) (sv : ServerState)
    (s' : SeenStore) (sv' : ServerState) : Prop where
  lookup : ∀ id, s'.lookup id =
    (s.lookup id).map (uploaded agentID sv id)
  refused : ∀ id entry, s.lookup id = some entry →
    entry.state = some .resultPending →
      uploadable agentID sv id entry = false →
        uploadable agentID sv' id entry = false

theorem uploadable_eq_true {entry : SeenEntry} :
    uploadable agentID sv id entry = true ↔ hasNoncePrefix id = false ∧
      ∃ r, entry.result = some r ∧ sv.takes agentID id r = true := by
  rw [uploadable, Bool.and_eq_true, Bool.not_eq_true', Option.any_eq_true]

theorem Flushes.outbox {s' : SeenStore}
    (h : Flushes agentID s.pendingResults s sv s' sv') :
    FlushesOutbox agentID s sv s' sv' := by
  -- the results listed for an id are the pending one of its entry
  have hlisted : ∀ id entry, s.lookup id = some entry →
      (entry.state = some .resultPending ∧
        uploadable agentID sv id entry = true) ∨
      ∀ r, (id, r) ∈ s.pendingResults → sv.takes agentID id r = false := by
    intro id entry hlook
    by_cases hup : entry.state = some .resultPending ∧
        uploadable agentID sv id entry = true
    · exact Or.inl hup
    · right
      intro r hmem
      obtain ⟨e, he, hid, hstate, hres⟩ := mem_pendingResults_iff.mp hmem
      obtain rfl := Option.some.inj (hlook.symm.trans he)
      rw [Bool.eq_false_iff]
      intro htakes
      exact hup ⟨hstate, uploadable_eq_true.mpr ⟨hid, r, hres, htakes⟩⟩
  constructor
  · intro id
    cases hlook : s.lookup id with
    | none =>
        rw [(h.kept id ?_).1, hlook]
        · rfl
        · intro r hmem
          obtain ⟨e, he, -⟩ := mem_pendingResults_iff.mp hmem
          rw [hlook] at he
          cases he
    | some entry =>
        rcases hlisted id entry hlook with ⟨hstate, hup⟩ | hnone
        · obtain ⟨hid, r, hres, htakes⟩ := uploadable_eq_true.mp hup
          rw [h.taken id r (mem_pendingResults_iff.mpr
            ⟨entry, hlook, hid, hstate, hres⟩) htakes, hlook, Option.map_some,
            Option.map_some, uploaded, if_pos ⟨hstate, hup⟩]
        · rw [(h.kept id hnone).1, hlook, Option.map_some, uploaded, if_neg]
          intro hup
          obtain ⟨hid, r, hres, htakes⟩ := uploadable_eq_true.mp hup.2
          rw [hnone r (mem_pendingResults_iff.mpr
            ⟨entry, hlook, hid, hup.1, hres⟩)] at htakes
          cases htakes
  · intro id entry hlook hstate hno
    rcases hlisted id entry hlook with ⟨-, hup⟩ | hnone
    · rw [hno] at hup
      cases hup
    · rw [Bool.eq_false_iff]
      intro hup
      obtain ⟨hid, r, hres, htakes⟩ := uploadable_eq_true.mp hup
      rw [takes_congr (h.kept id hnone).2 h.trust] at htakes
      rw [Bool.eq_false_iff] at hno
      exact hno (uploadable_eq_true.mpr ⟨hid, r, hres, htakes⟩)

theorem withAnswers_flushPendingResults :
    WithAnswers agentID hands reading
      (flushPendingResults s : AgentProg Key _) sv
      fun x sv' => FlushesOutbox agentID s sv x.2 sv' := by
  refine wp_mono (withAnswers_flushLoop (nodup_pendingResults s) ?_) ?_
  · intro id r hmem
    obtain ⟨entry, hlook, -, hrest⟩ := mem_pendingResults_iff.mp hmem
    exact ⟨entry, hlook, hrest⟩
  · intro x sv' hflush
    exact hflush.outbox

/-! ## Check-ins -/

theorem withAnswers_pruneAndSave :
    WithAnswers agentID hands reading (pruneAndSave s : AgentProg Key _) sv
      fun x sv' => sv' = sv ∧ ∃ t, reading ≤ t ∧
        x = (true, SeenStore.pruned (wallTime t) s) := by
  refine withAnswers_act ?_
  rintro t sv' ⟨ht, rfl⟩
  show WithAnswers agentID hands reading (ite _ _ _) _ _
  split
  · refine withAnswers_act ?_
    rintro ok sv' ⟨rfl, rfl⟩
    exact ⟨rfl, t, ht, rfl⟩
  · exact ⟨rfl, t, ht, rfl⟩

/-- What a check-in that is handed no commands leaves. -/
def ChecksIn (agentID : String) (reading : Nat) (s : SeenStore)
    (sv : ServerState) (s' : SeenStore) : Prop :=
  ∃ t, reading ≤ t ∧
    ((s' = SeenStore.pruned (wallTime t) s ∧ (sv.trust ≠ .active ∨
      heartbeatRefused sv.trust
        (pendingResultNotices (SeenStore.pruned (wallTime t) s)) = true)) ∨
    ∀ id, s'.lookup id =
      ((SeenStore.pruned (wallTime t) s).lookup id).map
        (uploaded agentID sv id))

theorem withAnswers_checkIn {ed25519Verify : Key → Bytes → Bytes → Bool}
    {sess : Session Key} :
    WithAnswers agentID (· = []) reading (checkIn ed25519Verify sess) sv
      fun x _ => ChecksIn agentID reading sess.seen sv x.2.seen := by
  refine wp_seq withAnswers_pruneAndSave ?_
  rintro ⟨ok, s₁⟩ sv₁ ⟨rfl, t, ht, heq⟩
  obtain ⟨rfl, rfl⟩ := Prod.mk.inj heq
  refine withAnswers_act ?_
  rintro reply sv₂ ⟨rfl, hreply⟩
  cases reply with
  | failed => exact ⟨t, ht, Or.inl ⟨rfl, Or.inr hreply⟩⟩
  | quarantined =>
      refine ⟨t, ht, Or.inl ⟨rfl, Or.inl ?_⟩⟩
      rw [hreply.2]
      exact nofun
  | ok keys cmds =>
      obtain ⟨-, -, rfl⟩ := hreply
      show WithAnswers agentID (· = []) reading
        (flushPendingResults _ >>= _) sv₂ _
      refine wp_seq withAnswers_flushPendingResults ?_
      rintro ⟨out, s₃⟩ sv₃ hflush
      exact ⟨t, ht, Or.inr hflush.lookup⟩

/-! ## Entries over check-ins -/

theorem lookup_pruned_pending {now : Int} {entry : SeenEntry}
    (hstate : entry.state = some .resultPending) :
    (SeenStore.pruned now s).lookup id = some entry ↔
      s.lookup id = some entry := by
  rw [lookup_pruned, Option.filter_eq_some_iff]
  refine and_iff_left_of_imp fun _ => ?_
  rw [SeenStore.prunable, hstate]
  rfl

/-- The ids of the outbox fit a heartbeat's notices. -/
def NoticesFit (s : SeenStore) : Prop :=
  ∀ p ∈ s.pendingResults, 1 ≤ p.1.length ∧ p.1.length ≤ 64

theorem NoticesFit.of_pending {s' : SeenStore} (h : NoticesFit s)
    (hs : ∀ id entry, entry.state = some .resultPending →
      s'.lookup id = some entry → s.lookup id = some entry) :
    NoticesFit s' := by
  rintro ⟨id, r⟩ hmem
  obtain ⟨entry, hlook, hid, hstate, hres⟩ := mem_pendingResults_iff.mp hmem
  exact h (id, r) (mem_pendingResults_iff.mpr
    ⟨entry, hs id entry hstate hlook, hid, hstate, hres⟩)

theorem NoticesFit.pruned {now : Int} (h : NoticesFit s) :
    NoticesFit (SeenStore.pruned now s) :=
  h.of_pending fun _ _ hstate => (lookup_pruned_pending hstate).mp

/-- An active agent whose notices fit has its heartbeat served. -/
theorem heartbeat_served (h : NoticesFit s) :
    heartbeatRefused .active (pendingResultNotices s) = false := by
  have hids : (noticesOfWire (pendingResultNotices s)).map Prod.fst =
      (s.pendingResults.map Prod.fst).take 256 := by
    rw [noticesOfWire, pendingResultNotices, List.map_map, List.map_map,
      ← List.map_take]
    rfl
  have hvalid : HeartbeatIn.valid
      ⟨[], noticesOfWire (pendingResultNotices s)⟩ = true := by
    rw [HeartbeatIn.valid, Bool.and_eq_true, Bool.and_eq_true]
    refine ⟨⟨?_, ?_⟩, ?_⟩
    · rw [decide_eq_true_eq, ← List.length_map Prod.fst, hids,
        List.length_take]
      exact Nat.min_le_left _ _
    · rw [List.all_eq_true]
      intro n hn
      have hmem : n.1 ∈ (s.pendingResults.map Prod.fst).take 256 :=
        hids ▸ List.mem_map_of_mem hn
      obtain ⟨p, hp, heq⟩ := List.mem_map.mp (List.mem_of_mem_take hmem)
      rw [decide_eq_true_eq, ← heq]
      exact h p hp
    · rw [decide_eq_true_eq, hids]
      exact (nodup_pendingResults s).sublist (List.take_sublist _ _)
  rw [heartbeatRefused, hvalid]
  rfl

theorem uploaded_pending {entry e : SeenEntry}
    (hstate : entry.state = some .resultPending)
    (h : uploaded agentID sv id e = entry) :
    e = entry ∧ uploadable agentID sv id entry = false := by
  rw [uploaded] at h
  split at h
  · rw [← h] at hstate
    cases hstate
  · next hno =>
      subst h
      refine ⟨rfl, ?_⟩
      rw [Bool.eq_false_iff]
      exact fun hup => hno ⟨hstate, hup⟩

section Steps

variable {s' : SeenStore} {entry : SeenEntry}

/-- What waits after a check-in has waited before it. -/
theorem ChecksIn.waited (h : ChecksIn agentID reading s sv s')
    (hstate : entry.state = some .resultPending)
    (hlook : s'.lookup id = some entry) : s.lookup id = some entry := by
  obtain ⟨t, -, ⟨rfl, -⟩ | hup⟩ := h
  · exact (lookup_pruned_pending hstate).mp hlook
  · rw [hup, Option.map_eq_some_iff] at hlook
    obtain ⟨e, he, heq⟩ := hlook
    obtain ⟨rfl, -⟩ := uploaded_pending hstate heq
    exact (lookup_pruned_pending hstate).mp he

/-- What the server does not take waits on. -/
theorem ChecksIn.waits (h : ChecksIn agentID reading s sv s')
    (hstate : entry.state = some .resultPending)
    (hlook : s.lookup id = some entry)
    (hno : uploadable agentID sv id entry = false) :
    s'.lookup id = some entry := by
  obtain ⟨t, -, ⟨rfl, -⟩ | hup⟩ := h
  · exact (lookup_pruned_pending hstate).mpr hlook
  · rw [hup, (lookup_pruned_pending hstate).mpr hlook, Option.map_some,
      uploaded, if_neg]
    intro hyes
    rw [hno] at hyes
    cases hyes.2

/-- What the server takes waits no longer. -/
theorem ChecksIn.taken (h : ChecksIn agentID reading s sv s')
    (hfit : NoticesFit s) (hstate : entry.state = some .resultPending)
    (hlook : s'.lookup id = some entry) :
    uploadable agentID sv id entry = false := by
  obtain ⟨t, -, ⟨rfl, hunserved⟩ | hup⟩ := h
  · rw [Bool.eq_false_iff]
    intro hyes
    obtain ⟨-, r, -, htakes⟩ := uploadable_eq_true.mp hyes
    have hactive : sv.trust = .active := by
      rw [ServerState.takes, Bool.and_eq_true, Bool.and_eq_true,
        decide_eq_true_eq] at htakes
      exact htakes.1.1
    rcases hunserved with hne | hrefused
    · exact hne hactive
    · rw [hactive, heartbeat_served hfit.pruned] at hrefused
      cases hrefused
  · rw [hup, Option.map_eq_some_iff] at hlook
    obtain ⟨e, -, heq⟩ := hlook
    exact (uploaded_pending hstate heq).2

/-- After a drained journal's check-in every entry is one it pruned around. -/
theorem ChecksIn.kept (h : ChecksIn agentID reading s sv s')
    (hdrained : Drained s) (hlook : s'.lookup id = some entry) :
    ∃ t, reading ≤ t ∧ SeenStore.prunable (wallTime t) entry = false := by
  obtain ⟨t, ht, hcase⟩ := h
  have hstill : (SeenStore.pruned (wallTime t) s).lookup id = some entry := by
    rcases hcase with ⟨rfl, -⟩ | hup
    · exact hlook
    · rw [hup, Option.map_eq_some_iff] at hlook
      obtain ⟨e, he, heq⟩ := hlook
      have hkept := he
      rw [lookup_pruned, Option.filter_eq_some_iff] at hkept
      rw [uploaded, if_neg fun hup => hdrained id e hkept.1 hup.1] at heq
      exact heq ▸ he
  rw [lookup_pruned, Option.filter_eq_some_iff, Bool.not_eq_true'] at hstill
  exact ⟨t, ht, hstill.2⟩

/-- An expired entry that is kept has no expiry of its own, or its command
is not finished. -/
theorem not_prunable {now : Int} (hexp : entry.expiry < now)
    (hstate : entry.state ≠ some .resultPending)
    (h : SeenStore.prunable now entry = false) :
    entry.expiry = zeroTime ∨ entry.state = some .reserved ∨
      entry.state = some .executing := by
  by_contra hnone
  rw [not_or, not_or] at hnone
  obtain ⟨hzero, hres, hexe⟩ := hnone
  have htrue : SeenStore.prunable now entry = true := by
    simp [SeenStore.prunable, hzero, hres, hexe, hstate, hexp]
  rw [h] at htrue
  cases htrue

end Steps

variable {ed25519Verify : Key → Bytes → Bytes → Bool} {a b : Session Key}
  {svs : List ServerState} {entry : SeenEntry}

/-- An entry no server of the check-ins takes waits through all of them. -/
theorem checkIns_waits
    (h : CheckIns agentID (· = []) reading ed25519Verify a svs b)
    (hstate : entry.state = some .resultPending)
    (hlook : a.seen.lookup id = some entry)
    (hno : ∀ sv ∈ svs, uploadable agentID sv id entry = false) :
    b.seen.lookup id = some entry := by
  induction h with
  | nil => exact hlook
  | cons hrun hrest ih =>
      have hstep := wp_runsTo withAnswers_checkIn hrun
      exact ih (hstep.waits hstate hlook (hno _ List.mem_cons_self))
        fun sv hsv => hno sv (List.mem_cons_of_mem _ hsv)

/-- What waits after all of them has waited from the start, and none takes
it. -/
theorem checkIns_waited
    (h : CheckIns agentID (· = []) reading ed25519Verify a svs b)
    (hfit : NoticesFit a.seen) (hstate : entry.state = some .resultPending)
    (hlook : b.seen.lookup id = some entry) :
    a.seen.lookup id = some entry ∧
      ∀ sv ∈ svs, uploadable agentID sv id entry = false := by
  induction h with
  | nil => exact ⟨hlook, fun sv hsv => absurd hsv List.not_mem_nil⟩
  | cons hrun hrest ih =>
      have hstep := wp_runsTo withAnswers_checkIn hrun
      have hfit' := hfit.of_pending fun _ _ hst hl => hstep.waited hst hl
      obtain ⟨hmid, hno⟩ := ih hfit' hlook
      exact ⟨hstep.waited hstate hmid, List.forall_mem_cons.mpr
        ⟨hstep.taken hfit hstate hmid, hno⟩⟩

theorem takes_row (h : sv.takes agentID id r = true) :
    ∃ row, sv.table.lookup id = some row := by
  rw [ServerState.takes, Bool.and_eq_true] at h
  cases hrow : sv.table.lookup id with
  | none =>
      rw [hrow] at h
      cases h.2
  | some row => exact ⟨row, rfl⟩

/-- Whatever a check-in hands out, what waits after its last flush is what
the server does not take. -/
theorem withAnswers_checkIn_left {sess : Session Key}
    (hactive : sv.trust = .active) (hfit : NoticesFit sess.seen) :
    WithAnswers agentID hands reading (checkIn ed25519Verify sess) sv
      fun x sv' => x.1 ≠ .fatal → ∀ id entry,
        x.2.seen.lookup id = some entry →
          entry.state = some .resultPending →
            uploadable agentID sv' id entry = false := by
  have hleft : ∀ {s₁ s₂ : SeenStore} {sv₁ sv₂ : ServerState},
      FlushesOutbox agentID s₁ sv₁ s₂ sv₂ → ∀ id entry,
        s₂.lookup id = some entry → entry.state = some .resultPending →
          uploadable agentID sv₂ id entry = false := by
    intro s₁ s₂ sv₁ sv₂ hflush id entry hlook hstate
    rw [hflush.lookup, Option.map_eq_some_iff] at hlook
    obtain ⟨e, he, heq⟩ := hlook
    obtain ⟨rfl, hno⟩ := uploaded_pending hstate heq
    exact hflush.refused id e he hstate hno
  refine wp_seq withAnswers_pruneAndSave ?_
  rintro ⟨ok, s₁⟩ sv₁ ⟨rfl, t, ht, heq⟩
  obtain ⟨rfl, rfl⟩ := Prod.mk.inj heq
  refine withAnswers_act ?_
  rintro reply sv₂ ⟨rfl, hreply⟩
  have hserved := heartbeat_served (@NoticesFit.pruned _ (wallTime t) hfit)
  rw [← hactive] at hserved
  cases reply with
  | failed =>
      rw [show heartbeatRefused sv₂.trust _ = true from hreply] at hserved
      cases hserved
  | quarantined =>
      rw [hactive] at hreply
      cases hreply.2
  | ok keys cmds =>
      show WithAnswers agentID hands reading
        (flushPendingResults _ >>= _) sv₂ _
      refine wp_seq withAnswers_flushPendingResults ?_
      rintro ⟨out, s₃⟩ sv₃ hflush
      show WithAnswers agentID hands reading (ite _ _ _) sv₃ _
      split
      · exact fun _ => hleft hflush
      · refine wp_seq (withAnswers_true _) ?_
        rintro ⟨drained, sess₁⟩ sv₄ -
        cases drained with
        | none => exact fun hf => absurd rfl hf
        | some out₁ =>
            refine wp_seq withAnswers_flushPendingResults ?_
            rintro ⟨flushed, s₅⟩ sv₅ hflush₅
            exact fun _ => hleft hflush₅

/-- Over answered check-ins that hand out nothing new, with the server
changing in any way in between, the outbox drains exactly when each waiting
entry has an ordinary id and one of the servers takes its result. Of a
drained journal the next check-in prunes what has expired. And whatever a
check-in hands out, it leaves only entries the server does not take. -/
theorem outbox_drains_iff
    (hrun : CheckIns agentID (· = []) reading ed25519Verify a svs b)
    (huuid : ∀ sv ∈ svs, ∀ id row, sv.table.lookup id = some row →
      1 ≤ id.length ∧ id.length ≤ 64) :
    (Drained b.seen ↔ ∀ id entry, a.seen.lookup id = some entry →
      entry.state = some .resultPending →
        ∃ sv ∈ svs, uploadable agentID sv id entry = true) ∧
    (∀ sv t c, Drained b.seen →
      CheckIns agentID (· = []) t ed25519Verify b [sv] c →
      Drained c.seen ∧ ∀ id entry, c.seen.lookup id = some entry →
        entry.expiry < wallTime t → entry.expiry = zeroTime ∨
          entry.state = some .reserved ∨ entry.state = some .executing) ∧
    ∀ hands sv t out c sv', RunsTo (answeredWorld agentID hands t)
        (checkIn ed25519Verify b) sv (out, c) sv' →
      sv.trust = .active → NoticesFit b.seen → out ≠ .fatal →
      ∀ id entry, c.seen.lookup id = some entry →
        entry.state = some .resultPending →
          uploadable agentID sv' id entry = false := by
  refine ⟨⟨?_, ?_⟩, ?_, ?_⟩
  · intro hdrained id entry hlook hstate
    by_contra hnone
    have hno : ∀ sv ∈ svs, uploadable agentID sv id entry = false := by
      intro sv hsv
      rw [Bool.eq_false_iff]
      exact fun hup => hnone ⟨sv, hsv, hup⟩
    exact hdrained id entry (checkIns_waits hrun hstate hlook hno) hstate
  · intro htaken id entry hlook hstate
    have hfit : NoticesFit a.seen := by
      rintro ⟨key, r⟩ hmem
      obtain ⟨e, he, -, hst, -⟩ := mem_pendingResults_iff.mp hmem
      obtain ⟨sv, hsv, hup⟩ := htaken key e he hst
      obtain ⟨-, r', -, htakes⟩ := uploadable_eq_true.mp hup
      obtain ⟨row, hrow⟩ := takes_row htakes
      exact huuid sv hsv key row hrow
    obtain ⟨hstart, hno⟩ := checkIns_waited hrun hfit hstate hlook
    obtain ⟨sv, hsv, hup⟩ := htaken id entry hstart hstate
    rw [hno sv hsv] at hup
    cases hup
  · intro sv t c hdrained hnext
    cases hnext with
    | cons hcheck hrest =>
        cases hrest
        have hstep := wp_runsTo withAnswers_checkIn hcheck
        have hdrained' : Drained c.seen := fun id entry hlook hstate =>
          hdrained id entry (hstep.waited hstate hlook) hstate
        refine ⟨hdrained', fun id entry hlook hexp => ?_⟩
        obtain ⟨t', ht, hpruned⟩ := hstep.kept hdrained hlook
        exact not_prunable (lt_of_lt_of_le hexp (wallTime_mono ht))
          (hdrained' id entry hlook) hpruned
  · intro hands sv t out c sv' hcheck hactive hfit
    exact wp_runsTo (withAnswers_checkIn_left hactive hfit) hcheck

end Answered

/-! ## An entry that never drains -/

theorem answeredDoes_total {Key : Type} (keys : TrustedKeys Key)
    {agentID : String} {reading : Nat} (sv : ServerState) (o : AgentOp) :
    ∃ a sv', (answeredWorld agentID (· = []) reading :
      Lib.World AgentOp (AgentOp.Ans Key) ServerState).does sv o a sv' := by
  cases o with
  | now => exact ⟨reading, sv, le_rfl, rfl⟩
  | identity => exact ⟨⟨agentID, keys⟩, sv, rfl⟩
  | load => exact ⟨none, sv, rfl⟩
  | save entries => exact ⟨true, sv, rfl, rfl⟩
  | heartbeat notices =>
      by_cases hr : heartbeatRefused sv.trust notices = true
      · exact ⟨.failed, sv, rfl, hr⟩
      · rw [Bool.not_eq_true] at hr
        by_cases hq : sv.trust = .quarantined
        · exact ⟨.quarantined, sv, rfl, hr, hq⟩
        · exact ⟨.ok keys [], sv, rfl, hr, hq, rfl⟩
  | report id r => exact ⟨sv.takes agentID id r, _, rfl, 0, rfl⟩
  | execute cmd => exact ⟨{ exitCode := 0 }, sv, rfl⟩

/-- Whatever the servers, the check-ins with them come to an end. -/
theorem exists_checkIns {Key : Type} {agentID : String} {reading : Nat}
    {ed25519Verify : Key → Bytes → Bytes → Bool} (a : Session Key)
    (svs : List ServerState) :
    ∃ b, CheckIns agentID (· = []) reading ed25519Verify a svs b := by
  induction svs generalizing a with
  | nil => exact ⟨a, .nil⟩
  | cons sv svs ih =>
      obtain ⟨⟨out, s⟩, sv', hrun⟩ := exists_runsTo
        (answeredDoes_total a.keys) (checkIn ed25519Verify a) sv
      obtain ⟨b, hrest⟩ := ih s
      exact ⟨b, .cons hrun hrest⟩

/-! The sample command's result is taken by a server that has handed the
command out. -/

def sampleServer : ServerState where
  table := AList.insert "c-1" { queuedRow "a-1" sampleCommand 0 none with
    status := .dispatched } ∅

def sampleWaiting : Session Unit where
  agentID := "a-1"
  keys := ⟨(), []⟩
  seen := AList.insert "c-1" {
    expiry := 0
    state := some .resultPending
    result := some { exitCode := 0 } } ∅

theorem outbox_drains_iff_sample :
    ∃ b, CheckIns "a-1" (· = []) 0 (verifiesOnly sampleMessage) sampleWaiting
        [sampleServer] b ∧ Drained b.seen := by
  obtain ⟨b, hrun⟩ := @exists_checkIns _ "a-1" 0 (verifiesOnly sampleMessage)
    sampleWaiting [sampleServer]
  refine ⟨b, hrun, (outbox_drains_iff hrun ?_).1.mpr ?_⟩
  · intro sv hsv id row hrow
    obtain rfl := List.mem_singleton.mp hsv
    obtain ⟨rfl, -⟩ := StrMap.eq_of_lookup_insert_empty hrow
    decide
  · intro id entry hlook hstate
    obtain ⟨rfl, rfl⟩ := StrMap.eq_of_lookup_insert_empty hlook
    exact ⟨sampleServer, List.mem_singleton_self _, by decide +kernel⟩

/-- A command the server does not know. -/
def ghostCommand : Command :=
  { sampleCommand with id := "ghost", agentID := "elsewhere" }

/-- Every request is answered, and every upload refused. -/
def refusingScript {Key : Type} (trusts : TrustedKeys Key → Prop)
    (keys : { k : TrustedKeys Key // trusts k }) (agentID : String)
    (cmds : List Command) : Script (agentWorld trusts) where
  answer := fun w o =>
    match o with
    | .report id r => (false, w.send id r)
    | o => (fairScript trusts keys agentID cmds { exitCode := 0 }).answer w o
  covers := fun _ => True
  closed := fun _ _ _ => trivial
  lawful := by
    intro w o h
    cases o with
    | report id r => exact rfl
    | now | identity | load | heartbeat | save | execute =>
        exact (fairScript trusts keys agentID cmds _).lawful w _ h

def ghostTurn : AgentWorld × Option (Session Unit) →
    AgentWorld × Option (Session Unit) :=
  (refusingScript (Signer.ofMessage sampleMessage).trusts
    ⟨⟨(), []⟩, ofMessage_trusts _⟩ "a-1" [ghostCommand]).turn
    (agentMachine (verifiesOnly sampleMessage))
    (beat (verifiesOnly sampleMessage))

theorem agentRun_ghostTurn (c : AgentWorld × Option (Session Unit)) :
    AgentRun (Signer.ofMessage sampleMessage) (c.1, .ofOption c.2)
      ((ghostTurn c).1, .ofOption (ghostTurn c).2) :=
  Script.run_turn _ (fun _ => rfl) trivial

theorem ghostTurn_waits :
    ((ghostTurn (ghostTurn (sampleStart, none))).2.any fun sess =>
      (sess.seen.lookup "ghost").any fun entry =>
        decide (entry.state = some .resultPending)) = true := by
  decide +kernel

/-- The refusal of a command the server has never heard of waits through any
number of check-ins in which the server answers everything, at any time. -/
theorem ghost_never_drains :
    ∃ w sess entry, AgentRun (Signer.ofMessage sampleMessage)
        (sampleStart, .down) (w, .idle sess) ∧
      sess.seen.lookup "ghost" = some entry ∧
      entry.state = some .resultPending ∧
      ∀ n reading,
        (∃ b, CheckIns "a-1" (· = []) reading (verifiesOnly sampleMessage) sess
          (List.replicate n {}) b) ∧
        ∀ b, CheckIns "a-1" (· = []) reading (verifiesOnly sampleMessage) sess
            (List.replicate n {}) b →
          b.seen.lookup "ghost" = some entry := by
  have hrun := (agentRun_ghostTurn (sampleStart, none)).trans
    (agentRun_ghostTurn _)
  have hfacts := ghostTurn_waits
  rw [Option.any_eq_true] at hfacts
  obtain ⟨sess, hsess, hentry⟩ := hfacts
  rw [Option.any_eq_true] at hentry
  obtain ⟨entry, hlook, hstate⟩ := hentry
  rw [decide_eq_true_eq] at hstate
  rw [hsess] at hrun
  refine ⟨_, sess, entry, hrun, hlook, hstate, fun n reading => ?_⟩
  refine ⟨exists_checkIns sess _, fun b hb => ?_⟩
  refine checkIns_waits hb hstate hlook fun sv hsv => ?_
  obtain rfl := List.eq_of_mem_replicate hsv
  have hnot : ∀ r, ServerState.takes "a-1" {} "ghost" r = false := by
    intro r
    rw [ServerState.takes, AList.lookup_empty]
    exact Bool.and_false _
  rw [Bool.eq_false_iff]
  intro hup
  obtain ⟨-, r, -, htakes⟩ := uploadable_eq_true.mp hup
  rw [hnot r] at htakes
  cases htakes

end NodeLink.Proofs
