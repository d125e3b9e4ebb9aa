import NodeLink.Agent.Protocol
import Mathlib.Data.Option.Basic

/-!
# What a journal remembers of a started command

A journal `Protects` a command when both of its replay keys have entries
that outlive the signed expiry, and no reservation recovery could release
bears one of them. Every operation of the journal keeps that: the few that
write an entry keep its expiry, reserving needs both keys to be free,
recovery only deletes what a reservation bears, and pruning deletes an entry
only once it has expired, when the signed window refuses the command anyway.
-/

namespace NodeLink.Proofs

open Lib Agent Protocol

/-- `key` has an entry that outlives `t`. -/
def Covered (s : SeenStore) (key : String) (t : Int) : Prop :=
  ∃ entry, s.lookup key = some entry ∧ t ≤ entry.expiry

structure Protects (s : SeenStore) (cmd : Command) : Prop where
  id : Covered s cmd.id (signedExpiry cmd)
  nonce : Covered s (nonceKey cmd.nonce) (signedExpiry cmd)
  unreleased : ∀ key entry, s.lookup key = some entry →
    SeenStore.releasable key entry = true →
      cmd.id ≠ key ∧ cmd.id ≠ nonceKey entry.nonce ∧ cmd.nonce ≠ entry.nonce

/-- No reservation is left for recovery to release. -/
def NoReservation (s : SeenStore) : Prop :=
  ∀ key entry, s.lookup key = some entry → SeenStore.releasable key entry = false

/-! ## Keys -/

theorem nonceKey_injective {m n : String} (h : nonceKey m = nonceKey n) :
    m = n := by
  have hl := congrArg String.toList h
  simp only [nonceKey, String.toList_append] at hl
  exact String.toList_inj.mp (List.append_cancel_left hl)

theorem hasNoncePrefix_nonceKey (nonce : String) :
    hasNoncePrefix (nonceKey nonce) = true := by
  rw [hasNoncePrefix, nonceKey, String.toList_append, List.isPrefixOf_iff_prefix]
  exact List.prefix_append _ _

theorem releasable_nonceKey (nonce : String) (entry : SeenEntry) :
    SeenStore.releasable (nonceKey nonce) entry = false := by
  simp [SeenStore.releasable, hasNoncePrefix_nonceKey]

theorem releasable_state {key : String} {entry : SeenEntry}
    (h : SeenStore.releasable key entry = true) :
    hasNoncePrefix key = false ∧ entry.state = some .reserved := by
  simpa [SeenStore.releasable] using h

/-! ## Writing one entry -/

section Insert

variable {s : SeenStore} {key : String} {entry : SeenEntry} {cmd : Command}

theorem Covered.insert {k : String} {t : Int} (h : Covered s k t)
    (hkey : k = key → t ≤ entry.expiry) : Covered (s.insert key entry) k t := by
  by_cases hk : k = key
  · exact ⟨entry, by rw [hk, AList.lookup_insert], hkey hk⟩
  · obtain ⟨old, hold, ht⟩ := h
    exact ⟨old, by rw [AList.lookup_insert_ne hk, hold], ht⟩

/-- Writing an entry that is no reservation and keeps the expiry. -/
theorem Protects.insert (h : Protects s cmd)
    (hstate : entry.state ≠ some .reserved)
    (hexpiry : ∀ old, s.lookup key = some old → signedExpiry cmd ≤ old.expiry →
      signedExpiry cmd ≤ entry.expiry) : Protects (s.insert key entry) cmd := by
  have hcover : ∀ k, Covered s k (signedExpiry cmd) →
      Covered (s.insert key entry) k (signedExpiry cmd) := by
    intro k hk
    refine hk.insert ?_
    rintro rfl
    obtain ⟨old, hold, ht⟩ := hk
    exact hexpiry old hold ht
  refine ⟨hcover _ h.id, hcover _ h.nonce, ?_⟩
  intro k e hlook hrel
  by_cases hk : k = key
  · rw [hk, AList.lookup_insert] at hlook
    obtain rfl := Option.some.inj hlook
    exact absurd (releasable_state hrel).2 hstate
  · rw [AList.lookup_insert_ne hk] at hlook
    exact h.unreleased k e hlook hrel

theorem NoReservation.insert (h : NoReservation s)
    (hstate : entry.state ≠ some .reserved) :
    NoReservation (s.insert key entry) := by
  intro k e hlook
  by_cases hk : k = key
  · rw [hk, AList.lookup_insert] at hlook
    obtain rfl := Option.some.inj hlook
    simp [SeenStore.releasable, hstate]
  · rw [AList.lookup_insert_ne hk] at hlook
    exact h k e hlook

end Insert

/-! ## Reserving -/

section Reserve

variable {s : SeenStore} {id nonce : String} {expiry : Int} {cmd : Command}

theorem lookup_reserved {k : String} :
    (s.reserved id nonce expiry).lookup k =
      if k = nonceKey nonce then some { expiry := expiry }
      else if k = id then
        some { expiry := expiry, nonce := nonce, state := some .reserved }
      else s.lookup k := by
  unfold SeenStore.reserved
  split
  · next hk => rw [hk, AList.lookup_insert]
  · next hk =>
      rw [AList.lookup_insert_ne hk]
      split
      · next hk' => rw [hk', AList.lookup_insert]
      · next hk' => rw [AList.lookup_insert_ne hk']

theorem Covered.reserved {k : String} {t : Int} (h : Covered s k t)
    (hid : s.lookup id = none) (hnonce : s.lookup (nonceKey nonce) = none) :
    Covered (s.reserved id nonce expiry) k t := by
  obtain ⟨old, hold, ht⟩ := h
  refine ⟨old, ?_, ht⟩
  have hk1 : k ≠ nonceKey nonce := by
    rintro rfl
    rw [hnonce] at hold
    cases hold
  have hk2 : k ≠ id := by
    rintro rfl
    rw [hid] at hold
    cases hold
  rw [lookup_reserved, if_neg hk1, if_neg hk2, hold]

/-- Reserving needs both keys to be free, so it touches no protected one. -/
theorem Protects.reserved (h : Protects s cmd) (hid : s.lookup id = none)
    (hnonce : s.lookup (nonceKey nonce) = none) :
    Protects (s.reserved id nonce expiry) cmd := by
  have hne : ∀ k, Covered s k (signedExpiry cmd) → s.lookup k ≠ none := by
    rintro k ⟨old, hold, -⟩ hn
    rw [hold] at hn
    cases hn
  refine ⟨h.id.reserved hid hnonce, h.nonce.reserved hid hnonce, ?_⟩
  intro k e hlook hrel
  rw [lookup_reserved] at hlook
  split at hlook
  · next hk =>
      rw [hk, releasable_nonceKey] at hrel
      cases hrel
  · split at hlook
    · next hk =>
        obtain rfl := Option.some.inj hlook
        subst hk
        refine ⟨?_, ?_, ?_⟩
        · intro heq
          exact hne _ h.id (heq ▸ hid)
        · intro heq
          exact hne _ h.id (heq ▸ hnonce)
        · intro heq
          exact hne _ h.nonce (heq ▸ hnonce)
    · exact h.unreleased k e hlook hrel

end Reserve

/-! ## Recovery and pruning -/

section Recovery

variable {s : SeenStore} {cmd : Command}

theorem releases_iff {key : String} : s.releases key = true ↔
    ∃ k entry, s.lookup k = some entry ∧ SeenStore.releasable k entry = true ∧
      (k = key ∨ (entry.nonce ≠ "" ∧ nonceKey entry.nonce = key)) := by
  rw [SeenStore.releases, List.any_eq_true]
  constructor
  · rintro ⟨⟨k, entry⟩, hmem, h⟩
    refine ⟨k, entry, AList.mem_lookup_iff.mpr hmem, ?_⟩
    simpa using h
  · rintro ⟨k, entry, hlook, hrel, h⟩
    refine ⟨⟨k, entry⟩, AList.mem_lookup_iff.mp hlook, ?_⟩
    simpa [hrel] using h

theorem lookup_recovered {key : String} :
    s.recovered.lookup key = if s.releases key then none
      else (s.lookup key).map (SeenStore.resolveInterrupted key) := by
  rw [SeenStore.recovered, StrMap.lookup_filter, StrMap.lookup_mapValues]
  cases hr : s.releases key <;>
    cases (s.lookup key).map (SeenStore.resolveInterrupted key) <;> simp

theorem resolveInterrupted_expiry (key : String) (entry : SeenEntry) :
    (SeenStore.resolveInterrupted key entry).expiry = entry.expiry := by
  unfold SeenStore.resolveInterrupted
  split <;> rfl

/-- Resolving turns nothing into a reservation. -/
theorem resolveInterrupted_releasable {key : String} {entry : SeenEntry}
    (h : SeenStore.releasable key
      (SeenStore.resolveInterrupted key entry) = true) :
    SeenStore.resolveInterrupted key entry = entry := by
  unfold SeenStore.resolveInterrupted at h ⊢
  split
  · next hexec =>
      rw [if_pos hexec] at h
      have := (releasable_state h).2
      cases this
  · rfl

theorem Protects.not_released (h : Protects s cmd) :
    s.releases cmd.id = false ∧ s.releases (nonceKey cmd.nonce) = false := by
  constructor
  · rw [Bool.eq_false_iff]
    intro hr
    obtain ⟨k, entry, hlook, hrel, hk | ⟨-, hk⟩⟩ := releases_iff.mp hr
    · exact (h.unreleased k entry hlook hrel).1 hk.symm
    · exact (h.unreleased k entry hlook hrel).2.1 hk.symm
  · rw [Bool.eq_false_iff]
    intro hr
    obtain ⟨k, entry, hlook, hrel, hk | ⟨-, hk⟩⟩ := releases_iff.mp hr
    · rw [hk, releasable_nonceKey] at hrel
      cases hrel
    · exact (h.unreleased k entry hlook hrel).2.2 (nonceKey_injective hk).symm

theorem Covered.recovered {k : String} {t : Int} (h : Covered s k t)
    (hr : s.releases k = false) : Covered s.recovered k t := by
  obtain ⟨entry, hlook, ht⟩ := h
  refine ⟨SeenStore.resolveInterrupted k entry, ?_, ?_⟩
  · rw [lookup_recovered, hr, hlook]
    rfl
  · rw [resolveInterrupted_expiry]
    exact ht

theorem Protects.recovered (h : Protects s cmd) : Protects s.recovered cmd := by
  obtain ⟨hid, hnonce⟩ := h.not_released
  refine ⟨h.id.recovered hid, h.nonce.recovered hnonce, ?_⟩
  intro k e hlook hrel
  rw [lookup_recovered] at hlook
  split at hlook
  · cases hlook
  · obtain ⟨entry, hentry, rfl⟩ := Option.map_eq_some_iff.mp hlook
    have hres := resolveInterrupted_releasable hrel
    rw [hres] at hrel ⊢
    exact h.unreleased k entry hentry hrel

/-- Recovery leaves no reservation of its own kind behind. -/
theorem noReservation_recovered : NoReservation s.recovered := by
  intro k e hlook
  rw [Bool.eq_false_iff]
  intro hrel
  rw [lookup_recovered] at hlook
  split at hlook
  · cases hlook
  · next hr =>
      obtain ⟨entry, hentry, rfl⟩ := Option.map_eq_some_iff.mp hlook
      have hres := resolveInterrupted_releasable hrel
      rw [hres] at hrel
      exact hr (releases_iff.mpr ⟨k, entry, hentry, hrel, Or.inl rfl⟩)

theorem noReservation_of_not_interrupted (h : s.interrupted = false) :
    NoReservation s := by
  intro k e hlook
  rw [Bool.eq_false_iff]
  intro hrel
  have hstate := releasable_state hrel
  rw [SeenStore.interrupted, List.any_eq_false] at h
  exact h ⟨k, e⟩ (AList.mem_lookup_iff.mp hlook) (by simp [hstate])

theorem lookup_pruned {now : Int} {key : String} :
    (SeenStore.pruned now s).lookup key =
      (s.lookup key).filter fun entry => !SeenStore.prunable now entry := by
  rw [SeenStore.pruned, StrMap.lookup_filter]

theorem prunable_expiry {now : Int} {entry : SeenEntry}
    (h : SeenStore.prunable now entry = true) : entry.expiry < now := by
  simp only [SeenStore.prunable, Bool.and_eq_true, decide_eq_true_eq] at h
  exact h.2

theorem Covered.pruned {k : String} {t now : Int} (h : Covered s k t)
    (ht : now ≤ t) : Covered (SeenStore.pruned now s) k t := by
  obtain ⟨entry, hlook, he⟩ := h
  refine ⟨entry, ?_, he⟩
  have hnot : SeenStore.prunable now entry = false := by
    rw [Bool.eq_false_iff]
    intro hp
    have := prunable_expiry hp
    omega
  rw [lookup_pruned, hlook, Option.filter_some, hnot]
  rfl

theorem Protects.pruned {now : Int} (h : Protects s cmd)
    (hlive : now ≤ signedExpiry cmd) : Protects (SeenStore.pruned now s) cmd := by
  refine ⟨h.id.pruned hlive, h.nonce.pruned hlive, ?_⟩
  intro k e hlook hrel
  rw [lookup_pruned, Option.filter_eq_some_iff] at hlook
  exact h.unreleased k e hlook.1 hrel

theorem NoReservation.pruned {now : Int} (h : NoReservation s) :
    NoReservation (SeenStore.pruned now s) := by
  intro k e hlook
  rw [lookup_pruned, Option.filter_eq_some_iff] at hlook
  exact h k e hlook.1

end Recovery

end NodeLink.Proofs
