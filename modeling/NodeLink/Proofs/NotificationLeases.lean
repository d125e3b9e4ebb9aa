import Mathlib.Data.List.Nodup
import NodeLink.Server.Notifications

/-!
# What a lease on a delivery is worth

A completion writes its delivery and its attempt as it finds them, whatever
has become of the lease they were claimed under. As long as each attempt that
is completed is still the sending one, every attempt that is being sent is the
newest of a delivery that is being sent, and from this the rest follows: what
has been delivered stays so, an outcome is never overwritten, and attempts are
counted against the allowance. The first completion that comes after the
recovery of its lease breaks all of it but the count.
-/

namespace NodeLink.Proofs.NotificationLeases

open Server.Notifications

variable {A : Type}

/-! ## The books of an outbox -/

/-- The delivery is being sent under the attempt. -/
def Leases (d : Delivery A) (a : Attempt A) : Prop :=
  d.id = a.deliveryID ∧ d.status = .sending ∧ d.attemptCount = a.attemptNumber

/-- Attempts are counted against the allowance. -/
structure Counted (outbox : Outbox A) : Prop where
  deliveryKeys : (outbox.deliveries.map (·.id)).Nodup
  bounded : ∀ d ∈ outbox.deliveries, d.attemptCount ≤ d.maxAttempts
  spare : ∀ d ∈ outbox.deliveries, d.status = .pending ∨ d.status = .retrying →
    d.attemptCount < d.maxAttempts

structure Sound (outbox : Outbox A) : Prop extends Counted outbox where
  attemptKeys : (outbox.attempts.map (·.id)).Nodup
  attemptNumbers :
    (outbox.attempts.map fun a => (a.deliveryID, a.attemptNumber)).Nodup
  numbered : ∀ a ∈ outbox.attempts, ∃ d ∈ outbox.deliveries,
    d.id = a.deliveryID ∧ a.attemptNumber ≤ d.attemptCount
  leased : ∀ a ∈ outbox.attempts, a.status = .sending →
    ∃ d ∈ outbox.deliveries, Leases d a

/-- No row is lost, and what has an outcome is not touched. -/
structure Keeps (outbox outbox' : Outbox A) : Prop where
  delivered : ∀ d ∈ outbox.deliveries, d.status = .delivered →
    d ∈ outbox'.deliveries
  ended : ∀ a ∈ outbox.attempts, a.status ≠ .sending → a ∈ outbox'.attempts

/-- The allowance of a row is the one it was queued with. -/
def KeepsAllowance (outbox outbox' : Outbox A) : Prop :=
  ∀ d ∈ outbox.deliveries, ∃ d' ∈ outbox'.deliveries,
    d'.id = d.id ∧ d'.maxAttempts = d.maxAttempts

theorem Keeps.refl (outbox : Outbox A) : Keeps outbox outbox :=
  ⟨fun _ hd _ => hd, fun _ ha _ => ha⟩

theorem Keeps.trans {o o' o'' : Outbox A} (h : Keeps o o') (h' : Keeps o' o'') :
    Keeps o o'' :=
  ⟨fun d hd hs => h'.delivered d (h.delivered d hd hs) hs,
    fun a ha hs => h'.ended a (h.ended a ha hs) hs⟩

theorem keepsAllowance_refl (outbox : Outbox A) :
    KeepsAllowance outbox outbox := fun d hd => ⟨d, hd, rfl, rfl⟩

theorem KeepsAllowance.trans {o o' o'' : Outbox A} (h : KeepsAllowance o o')
    (h' : KeepsAllowance o' o'') : KeepsAllowance o o'' := by
  intro d hd
  obtain ⟨d', hd', hid, hmax⟩ := h d hd
  obtain ⟨d'', hd'', hid', hmax'⟩ := h' d' hd'
  exact ⟨d'', hd'', hid'.trans hid, hmax'.trans hmax⟩

theorem Counted.delivery_ext {o : Outbox A} (h : Counted o)
    {d d' : Delivery A} (hd : d ∈ o.deliveries) (hd' : d' ∈ o.deliveries)
    (hid : d.id = d'.id) : d = d' :=
  List.inj_on_of_nodup_map h.deliveryKeys hd hd' hid

section Sound

variable {o : Outbox A} (h : Sound o)
include h

theorem Sound.attempt_ext {a a' : Attempt A} (ha : a ∈ o.attempts)
    (ha' : a' ∈ o.attempts) (hid : a.id = a'.id) : a = a' :=
  List.inj_on_of_nodup_map h.attemptKeys ha ha' hid

/-- A delivery is sent under one attempt at a time. -/
theorem Sound.sending_ext {a a' : Attempt A} (ha : a ∈ o.attempts)
    (ha' : a' ∈ o.attempts) (hs : a.status = .sending)
    (hs' : a'.status = .sending) (hd : a.deliveryID = a'.deliveryID) :
    a = a' := by
  obtain ⟨d, hdmem, hid, -, hnumber⟩ := h.leased a ha hs
  obtain ⟨d', hdmem', hid', -, hnumber'⟩ := h.leased a' ha' hs'
  have hsame : d = d' :=
    h.delivery_ext hdmem hdmem' (hid.trans (hd.trans hid'.symm))
  refine List.inj_on_of_nodup_map h.attemptNumbers ha ha' (Prod.ext hd ?_)
  exact hnumber.symm.trans ((congrArg _ hsame).trans hnumber')

/-- A newer attempt has taken the delivery over, so an older one has ended. -/
theorem Sound.newest {a b : Attempt A} (ha : a ∈ o.attempts)
    (hb : b ∈ o.attempts) (hs : a.status = .sending)
    (hd : b.deliveryID = a.deliveryID) : b.attemptNumber ≤ a.attemptNumber := by
  obtain ⟨d, hdmem, hid, -, hnumber⟩ := h.leased a ha hs
  obtain ⟨d', hdmem', hid', hle⟩ := h.numbered b hb
  have hsame : d' = d :=
    h.delivery_ext hdmem' hdmem (hid'.trans (hd.trans hid.symm))
  rw [hsame, hnumber] at hle
  exact hle

end Sound

/-- Deliveries are rewritten in place, with no attempt counted. -/
theorem Counted.rewrite {o : Outbox A} (h : Counted o)
    {f : Delivery A → Delivery A} {attempts : List (Attempt A)}
    (hid : ∀ d, (f d).id = d.id)
    (hcount : ∀ d, (f d).attemptCount = d.attemptCount)
    (hmax : ∀ d, d.maxAttempts ≤ (f d).maxAttempts)
    (hspare : ∀ d ∈ o.deliveries,
      (f d).status = .pending ∨ (f d).status = .retrying →
        (f d).attemptCount < (f d).maxAttempts) :
    Counted { deliveries := o.deliveries.map f, attempts } := by
  have hids : (fun d : Delivery A => d.id) ∘ f = fun d => d.id := funext hid
  constructor
  · rw [List.map_map, hids]
    exact h.deliveryKeys
  · intro d' hd'
    obtain ⟨d, hd, rfl⟩ := List.mem_map.mp hd'
    rw [hcount]
    exact le_trans (h.bounded d hd) (hmax d)
  · intro d' hd'
    obtain ⟨d, hd, rfl⟩ := List.mem_map.mp hd'
    exact hspare d hd

/-- The rows of both tables are rewritten in place: a delivery that is being
sent under an attempt that still is one is left alone. -/
theorem Sound.rewrite {o : Outbox A} (h : Sound o)
    {f : Delivery A → Delivery A} {g : Attempt A → Attempt A}
    (hid : ∀ d, (f d).id = d.id)
    (hcount : ∀ d, (f d).attemptCount = d.attemptCount)
    (hcounted : Counted
      { deliveries := o.deliveries.map f, attempts := o.attempts.map g })
    (hkey : ∀ a, (g a).id = a.id ∧ (g a).deliveryID = a.deliveryID ∧
      (g a).attemptNumber = a.attemptNumber)
    (hsending : ∀ a ∈ o.attempts, (g a).status = .sending →
      a.status = .sending ∧ ∀ d ∈ o.deliveries, Leases d a → f d = d) :
    Sound { deliveries := o.deliveries.map f, attempts := o.attempts.map g } := by
  have hkeys : (fun a : Attempt A => a.id) ∘ g = fun a => a.id :=
    funext fun a => (hkey a).1
  have hnumbers : (fun a : Attempt A => (a.deliveryID, a.attemptNumber)) ∘ g =
      fun a => (a.deliveryID, a.attemptNumber) :=
    funext fun a => Prod.ext (hkey a).2.1 (hkey a).2.2
  refine ⟨hcounted, ?_, ?_, ?_, ?_⟩
  · rw [List.map_map, hkeys]
    exact h.attemptKeys
  · rw [List.map_map, hnumbers]
    exact h.attemptNumbers
  · intro a' ha'
    obtain ⟨a, ha, rfl⟩ := List.mem_map.mp ha'
    obtain ⟨d, hd, hda, hle⟩ := h.numbered a ha
    refine ⟨f d, List.mem_map_of_mem hd, ?_, ?_⟩
    · rw [hid, (hkey a).2.1, hda]
    · rw [hcount, (hkey a).2.2]
      exact hle
  · intro a' ha' hs
    obtain ⟨a, ha, rfl⟩ := List.mem_map.mp ha'
    obtain ⟨hs', hsame⟩ := hsending a ha hs
    obtain ⟨d, hd, hlease⟩ := h.leased a ha hs'
    refine ⟨f d, List.mem_map_of_mem hd, ?_⟩
    rw [hsame d hd hlease]
    exact ⟨hlease.1.trans (hkey a).2.1.symm, hlease.2.1,
      hlease.2.2.trans (hkey a).2.2.symm⟩

theorem keeps_rewrite {o : Outbox A} {f : Delivery A → Delivery A}
    {g : Attempt A → Attempt A}
    (hf : ∀ d ∈ o.deliveries, d.status = .delivered → f d = d)
    (hg : ∀ a ∈ o.attempts, a.status ≠ .sending → g a = a) :
    Keeps o { deliveries := o.deliveries.map f, attempts := o.attempts.map g } :=
  ⟨fun d hd hs => List.mem_map.mpr ⟨d, hd, hf d hd hs⟩,
    fun a ha hs => List.mem_map.mpr ⟨a, ha, hg a ha hs⟩⟩

theorem keepsAllowance_map {o : Outbox A} {f : Delivery A → Delivery A}
    {attempts : List (Attempt A)} (hid : ∀ d, (f d).id = d.id)
    (hmax : ∀ d, (f d).maxAttempts = d.maxAttempts) :
    KeepsAllowance o { deliveries := o.deliveries.map f, attempts } :=
  fun d hd => ⟨f d, List.mem_map_of_mem hd, hid d, hmax d⟩

/-! ## The recovery of expired leases -/

section Recovery

variable {p : Pipeline A} {locked : String → Bool} {now : Int} {o : Outbox A}

theorem of_mem_expiredClaims {d : Delivery A}
    (hd : d ∈ expiredClaims p locked now o) :
    d ∈ o.deliveries ∧ d.status = .sending := by
  have hmem := List.mem_of_mem_take hd
  rw [List.mem_insertionSort, List.mem_filter] at hmem
  obtain ⟨hd, hsel⟩ := hmem
  simp only [Bool.and_eq_true, decide_eq_true_eq] at hsel
  exact ⟨hd, hsel.1.1⟩

theorem recoverDelivery_of_not_sending (h : Sound o) {d : Delivery A}
    (hd : d ∈ o.deliveries) (hs : d.status ≠ .sending) :
    recoverDelivery (expiredClaims p locked now o) now d = d := by
  unfold recoverDelivery
  split
  · next hmem =>
      obtain ⟨e, he, hid⟩ := List.mem_map.mp hmem
      obtain ⟨hemem, hes⟩ := of_mem_expiredClaims he
      rw [h.delivery_ext hemem hd hid] at hes
      exact absurd hes hs
  · rfl

@[simp] theorem recoverDelivery_id (expired : List (Delivery A))
    (d : Delivery A) : (recoverDelivery expired now d).id = d.id := by
  unfold recoverDelivery
  split <;> rfl

@[simp] theorem recoverDelivery_attemptCount (expired : List (Delivery A))
    (d : Delivery A) :
    (recoverDelivery expired now d).attemptCount = d.attemptCount := by
  unfold recoverDelivery
  split <;> rfl

@[simp] theorem recoverDelivery_maxAttempts (expired : List (Delivery A))
    (d : Delivery A) :
    (recoverDelivery expired now d).maxAttempts = d.maxAttempts := by
  unfold recoverDelivery
  split <;> rfl

theorem recoverAttempt_keys (expired : List (Delivery A)) (a : Attempt A) :
    (recoverAttempt o expired now a).id = a.id ∧
      (recoverAttempt o expired now a).deliveryID = a.deliveryID ∧
      (recoverAttempt o expired now a).attemptNumber = a.attemptNumber := by
  unfold recoverAttempt
  split
  · exact ⟨rfl, rfl, rfl⟩
  · split
    · exact ⟨rfl, rfl, rfl⟩
    · exact ⟨rfl, rfl, rfl⟩

theorem of_sendingAttempt {deliveryID : String} {a : Attempt A}
    (h : sendingAttempt o deliveryID = some a) :
    a ∈ o.attempts ∧ a.deliveryID = deliveryID ∧ a.status = .sending := by
  have hmem := List.mem_of_getLast? h
  rw [List.mem_filter, Bool.and_eq_true, decide_eq_true_eq,
    decide_eq_true_eq] at hmem
  exact hmem

theorem sendingAttempt_eq (h : Sound o) {a : Attempt A} (ha : a ∈ o.attempts)
    (hs : a.status = .sending) : sendingAttempt o a.deliveryID = some a := by
  cases hlast : sendingAttempt o a.deliveryID with
  | none =>
      have hnil := List.getLast?_eq_none_iff.mp hlast
      have hmem : a ∈ o.attempts.filter fun b =>
          decide (b.deliveryID = a.deliveryID) && decide (b.status = .sending) :=
        List.mem_filter.mpr ⟨ha, by simp [hs]⟩
      rw [hnil] at hmem
      exact absurd hmem List.not_mem_nil
  | some b =>
      obtain ⟨hb, hdelivery, hsb⟩ := of_sendingAttempt hlast
      rw [h.sending_ext hb ha hsb hs hdelivery]

theorem recoverAttempt_of_ended (h : Sound o) {expired : List (Delivery A)}
    {a : Attempt A} (ha : a ∈ o.attempts) (hs : a.status ≠ .sending) :
    recoverAttempt o expired now a = a := by
  unfold recoverAttempt
  split
  · rfl
  · split
    · next d _ hany =>
        obtain ⟨b, hb, hid⟩ := (Option.any_eq_true _ _).mp hany
        obtain ⟨hbmem, -, hbs⟩ := of_sendingAttempt hb
        rw [h.attempt_ext hbmem ha (of_decide_eq_true hid)] at hbs
        exact absurd hbs hs
    · rfl

/-- The attempt of a lease that is recovered ends. -/
theorem recoverAttempt_of_expired (h : Sound o) {d : Delivery A}
    {a : Attempt A} {expired : List (Delivery A)} (ha : a ∈ o.attempts)
    (hd : d ∈ expired) (hid : d.id = a.deliveryID) (hs : a.status = .sending) :
    (recoverAttempt o expired now a).status ≠ .sending := by
  unfold recoverAttempt
  cases hfind : expired.find? fun e => decide (e.id = a.deliveryID) with
  | none =>
      have hnone := List.find?_eq_none.mp hfind d hd
      exact absurd (decide_eq_true hid) hnone
  | some e =>
      have he : e.id = a.deliveryID := by simpa using List.find?_some hfind
      have hany : ((sendingAttempt o e.id).any fun b => decide (b.id = a.id)) =
          true := by
        rw [he, sendingAttempt_eq h ha hs]
        simp
      simp only [hany, if_true, Attempt.recover]
      split <;> simp

theorem Counted.recover (h : Counted o) :
    Counted (recoverExpiredClaims p locked now o) := by
  refine h.rewrite (recoverDelivery_id _) (recoverDelivery_attemptCount _)
    (fun d => le_of_eq (recoverDelivery_maxAttempts _ d).symm) ?_
  intro d hd hs
  unfold recoverDelivery at hs ⊢
  split at hs
  · next hmem =>
      rw [if_pos hmem]
      simp only [Delivery.recover] at hs ⊢
      split at hs
      · next hleft => exact of_decide_eq_true hleft
      · rcases hs with hs | hs <;> cases hs
  · next hmem =>
      rw [if_neg hmem]
      exact h.spare d hd hs

theorem Sound.recover (h : Sound o) :
    Sound (recoverExpiredClaims p locked now o) := by
  refine h.rewrite (recoverDelivery_id _) (recoverDelivery_attemptCount _)
    h.toCounted.recover (recoverAttempt_keys _) ?_
  intro a ha hs
  have hsending : a.status = .sending := by
    by_contra hended
    rw [recoverAttempt_of_ended h ha hended] at hs
    exact hended hs
  refine ⟨hsending, ?_⟩
  intro d hd hlease
  unfold recoverDelivery
  split
  · next hmem =>
      obtain ⟨e, he, hid⟩ := List.mem_map.mp hmem
      exact absurd hs (recoverAttempt_of_expired h ha he
        (hid.trans hlease.1) hsending)
  · rfl

theorem keeps_recover (h : Sound o) :
    Keeps o (recoverExpiredClaims p locked now o) := by
  refine keeps_rewrite ?_ fun a ha hs => recoverAttempt_of_ended h ha hs
  intro d hd hs
  exact recoverDelivery_of_not_sending h hd (by rw [hs]; nofun)

theorem keepsAllowance_recover :
    KeepsAllowance o (recoverExpiredClaims p locked now o) :=
  keepsAllowance_map (recoverDelivery_id _) (recoverDelivery_maxAttempts _)

end Recovery

/-! ## Claims -/

section Claiming

variable {p : Pipeline A} {locked : String → Bool} {now : Int}
  {uuid : String → String} {o : Outbox A}

theorem of_mem_dueDeliveries {d : Delivery A}
    (hd : d ∈ dueDeliveries p locked now o) :
    d ∈ o.deliveries ∧ (d.status = .pending ∨ d.status = .retrying) := by
  have hmem := List.mem_of_mem_take hd
  rw [List.mem_insertionSort, List.mem_filter] at hmem
  obtain ⟨hd, hsel⟩ := hmem
  simp only [Bool.and_eq_true, Bool.or_eq_true, decide_eq_true_eq] at hsel
  exact ⟨hd, hsel.1.1⟩

@[simp] theorem claimDelivery_id (due : List (Delivery A)) (d : Delivery A) :
    (claimDelivery due now d).id = d.id := by
  unfold claimDelivery
  split <;> rfl

@[simp] theorem claimDelivery_maxAttempts (due : List (Delivery A))
    (d : Delivery A) :
    (claimDelivery due now d).maxAttempts = d.maxAttempts := by
  unfold claimDelivery
  split <;> rfl

theorem le_claimDelivery_attemptCount (due : List (Delivery A))
    (d : Delivery A) :
    d.attemptCount ≤ (claimDelivery due now d).attemptCount := by
  unfold claimDelivery
  split
  · exact le_of_lt (Int.lt_succ d.attemptCount)
  · exact le_refl _

theorem claimDelivery_of_mem {due : List (Delivery A)} {d : Delivery A}
    (hd : d ∈ due) : claimDelivery due now d = d.claim now :=
  if_pos (List.mem_map_of_mem hd)

/-- The rows of a batch are rows that wait. -/
def Waiting (o : Outbox A) (due : List (Delivery A)) : Prop :=
  ∀ d ∈ due, d ∈ o.deliveries ∧ (d.status = .pending ∨ d.status = .retrying)

theorem claimDelivery_of_not_waiting (h : Counted o) {due : List (Delivery A)}
    (hdue : Waiting o due) {d : Delivery A} (hd : d ∈ o.deliveries)
    (hs : ¬ (d.status = .pending ∨ d.status = .retrying)) :
    claimDelivery due now d = d := by
  unfold claimDelivery
  split
  · next hmem =>
      obtain ⟨e, he, hid⟩ := List.mem_map.mp hmem
      obtain ⟨hemem, hes⟩ := hdue e he
      rw [h.delivery_ext hemem hd hid] at hes
      exact absurd hes hs
  · rfl

theorem claimRows_eq_some {due : List (Delivery A)}
    {answer : List Claim × Outbox A}
    (h : claimRows due now uuid o = some answer) :
    attemptKeysUnique (o.attempts ++ due.map (newAttempt uuid now)) = true ∧
      answer = (due.map fun d => ⟨d.id, uuid d.id⟩,
        { deliveries := o.deliveries.map (claimDelivery due now)
          attempts := o.attempts ++ due.map (newAttempt uuid now) }) := by
  unfold claimRows at h
  split at h
  · next hkeys => exact ⟨hkeys, (Option.some.inj h).symm⟩
  · cases h

theorem Counted.claimRows (h : Counted o) {due : List (Delivery A)}
    {attempts : List (Attempt A)} (hdue : Waiting o due) :
    Counted { deliveries := o.deliveries.map (claimDelivery due now)
              attempts } := by
  have hids : (fun d : Delivery A => d.id) ∘ claimDelivery due now =
      fun d => d.id := funext (claimDelivery_id due)
  constructor
  · rw [List.map_map, hids]
    exact h.deliveryKeys
  · intro d' hd'
    obtain ⟨d, hd, rfl⟩ := List.mem_map.mp hd'
    by_cases hmem : d.status = .pending ∨ d.status = .retrying
    · have hspare := h.spare d hd hmem
      unfold claimDelivery
      split
      · exact Int.add_one_le_iff.mpr hspare
      · exact le_of_lt hspare
    · rw [claimDelivery_of_not_waiting h hdue hd hmem]
      exact h.bounded d hd
  · intro d' hd' hs
    obtain ⟨d, hd, rfl⟩ := List.mem_map.mp hd'
    unfold claimDelivery at hs ⊢
    split at hs
    · rcases hs with hs | hs <;> cases hs
    · next hmem =>
        rw [if_neg hmem]
        exact h.spare d hd hs

theorem Sound.claimRows (h : Sound o) {due : List (Delivery A)}
    (hdue : Waiting o due)
    (hunique : attemptKeysUnique
      (o.attempts ++ due.map (newAttempt uuid now)) = true) :
    Sound { deliveries := o.deliveries.map (claimDelivery due now)
            attempts := o.attempts ++ due.map (newAttempt uuid now) } := by
  rw [attemptKeysUnique, Bool.and_eq_true, decide_eq_true_eq,
    decide_eq_true_eq] at hunique
  refine ⟨h.toCounted.claimRows hdue, hunique.1, hunique.2, ?_, ?_⟩
  · intro a ha
    rcases List.mem_append.mp ha with hold | hnew
    · obtain ⟨d, hd, hid, hle⟩ := h.numbered a hold
      refine ⟨claimDelivery due now d, List.mem_map_of_mem hd, ?_, ?_⟩
      · rw [claimDelivery_id, hid]
      · exact le_trans hle (le_claimDelivery_attemptCount due d)
    · obtain ⟨d, hd, rfl⟩ := List.mem_map.mp hnew
      refine ⟨claimDelivery due now d, List.mem_map_of_mem (hdue d hd).1,
        claimDelivery_id due d, ?_⟩
      rw [claimDelivery_of_mem hd]
      exact le_refl _
  · intro a ha hs
    rcases List.mem_append.mp ha with hold | hnew
    · obtain ⟨d, hd, hlease⟩ := h.leased a hold hs
      refine ⟨d, List.mem_map.mpr ⟨d, hd, ?_⟩, hlease⟩
      exact claimDelivery_of_not_waiting h.toCounted hdue hd
        (by rw [hlease.2.1]; simp)
    · obtain ⟨d, hd, rfl⟩ := List.mem_map.mp hnew
      refine ⟨d.claim now, List.mem_map.mpr
        ⟨d, (hdue d hd).1, claimDelivery_of_mem hd⟩, rfl, rfl, rfl⟩

theorem keeps_claimRows (h : Sound o) {due : List (Delivery A)}
    (hdue : Waiting o due) :
    Keeps o { deliveries := o.deliveries.map (claimDelivery due now)
              attempts := o.attempts ++ due.map (newAttempt uuid now) } := by
  constructor
  · intro d hd hs
    exact List.mem_map.mpr ⟨d, hd,
      claimDelivery_of_not_waiting h.toCounted hdue hd (by rw [hs]; simp)⟩
  · intro a ha _
    exact List.mem_append_left _ ha

/-- What `_claim_due` does to an outbox whose books are sound. -/
structure Claims (p : Pipeline A) (locked : String → Bool) (now : Int)
    (o : Outbox A) (claims : List Claim) (o' : Outbox A) : Prop where
  sound : Sound o'
  keeps : Keeps o o'
  allowance : KeepsAllowance o o'
  recovers : ∀ d ∈ expiredClaims p locked now o, ∀ a ∈ o.attempts,
    d.id = a.deliveryID → ∃ a' ∈ o'.attempts,
      a'.id = a.id ∧ a'.status ≠ .sending
  stays : ∀ a ∈ o.attempts, ∃ a' ∈ o'.attempts,
    a'.id = a.id ∧ a'.deliveryID = a.deliveryID
  claimed : ∀ c ∈ claims, ∃ a ∈ o'.attempts,
    a.id = c.attemptID ∧ a.deliveryID = c.deliveryID

theorem Counted.claimDue (h : Counted o) {lockedDue : String → Bool}
    {claims : List Claim} {o' : Outbox A}
    (hclaim : claimDue p locked lockedDue uuid now o = some (claims, o')) :
    Counted o' := by
  obtain ⟨_, hanswer⟩ := claimRows_eq_some hclaim
  obtain ⟨-, rfl⟩ := Prod.mk.inj hanswer
  exact h.recover.claimRows fun _ hd => of_mem_dueDeliveries hd

theorem Sound.claimDue (h : Sound o) {lockedDue : String → Bool}
    {claims : List Claim} {o' : Outbox A}
    (hclaim : claimDue p locked lockedDue uuid now o = some (claims, o')) :
    Claims p locked now o claims o' := by
  have hrecovered : Sound (recoverExpiredClaims p locked now o) := h.recover
  have hdue : Waiting (recoverExpiredClaims p locked now o)
      (dueDeliveries p (stillLocked p locked lockedDue now o) now
        (recoverExpiredClaims p locked now o)) :=
    fun d hd => of_mem_dueDeliveries hd
  obtain ⟨hunique, hanswer⟩ := claimRows_eq_some hclaim
  obtain ⟨rfl, rfl⟩ := Prod.mk.inj hanswer
  constructor
  · exact hrecovered.claimRows hdue hunique
  · exact (keeps_recover h).trans (keeps_claimRows hrecovered hdue)
  · exact keepsAllowance_recover.trans (keepsAllowance_map (claimDelivery_id _)
      (claimDelivery_maxAttempts _))
  · intro d hd a ha hid
    refine ⟨recoverAttempt o (expiredClaims p locked now o) now a,
      List.mem_append_left _ (List.mem_map_of_mem ha),
      (recoverAttempt_keys _ a).1, ?_⟩
    by_cases hs : a.status = .sending
    · exact recoverAttempt_of_expired h ha hd hid hs
    · rw [recoverAttempt_of_ended h ha hs]
      exact hs
  · intro a ha
    exact ⟨recoverAttempt o (expiredClaims p locked now o) now a,
      List.mem_append_left _ (List.mem_map_of_mem ha),
      (recoverAttempt_keys _ a).1, (recoverAttempt_keys _ a).2.1⟩
  · intro c hc
    obtain ⟨d, hd, rfl⟩ := List.mem_map.mp hc
    exact ⟨newAttempt uuid now d,
      List.mem_append_right _ (List.mem_map_of_mem hd), rfl, rfl⟩

end Claiming

/-! ## Completions -/

section Completing

variable {p : Pipeline A} {claim : Claim} {result : Except (SendError A) A}
  {completedAt : Int} {o : Outbox A}

/-- The attempt the completion is of is there, and it is being sent. -/
structure Sending (o : Outbox A) (claim : Claim) (a : Attempt A) : Prop where
  mem : a ∈ o.attempts
  id : a.id = claim.attemptID
  delivery : a.deliveryID = claim.deliveryID
  sending : a.status = .sending

theorem complete_id (d : Delivery A) :
    (d.complete p result completedAt).id = d.id := by
  cases result <;> rfl

theorem complete_attemptCount (d : Delivery A) :
    (d.complete p result completedAt).attemptCount = d.attemptCount := by
  cases result <;> rfl

theorem complete_maxAttempts (d : Delivery A) :
    (d.complete p result completedAt).maxAttempts = d.maxAttempts := by
  cases result <;> rfl

theorem complete_spare (d : Delivery A)
    (hs : (d.complete p result completedAt).status = .pending ∨
      (d.complete p result completedAt).status = .retrying) :
    d.attemptCount < d.maxAttempts := by
  cases result with
  | ok answer => rcases hs with hs | hs <;> cases hs
  | error error =>
      simp only [Delivery.complete] at hs
      split at hs
      · next hretries =>
          rw [SendError.retries, Bool.and_eq_true] at hretries
          exact of_decide_eq_true hretries.2
      · rcases hs with hs | hs <;> cases hs

theorem complete_keys (d : Delivery A) (a : Attempt A) :
    (a.complete p result completedAt d).id = a.id ∧
      (a.complete p result completedAt d).deliveryID = a.deliveryID ∧
      (a.complete p result completedAt d).attemptNumber = a.attemptNumber := by
  cases result <;> exact ⟨rfl, rfl, rfl⟩

theorem complete_ends (d : Delivery A) (a : Attempt A) :
    (a.complete p result completedAt d).status ≠ .sending := by
  cases result with
  | ok answer => nofun
  | error error =>
      simp only [Attempt.complete]
      split <;> nofun

theorem Counted.completeAttempt (h : Counted o) (p : Pipeline A)
    (result : Except (SendError A) A) (completedAt : Int) :
    Counted (completeAttempt p claim result completedAt o) := by
  unfold Server.Notifications.completeAttempt
  split
  · refine h.rewrite ?_ ?_ ?_ ?_
    · intro e
      split
      · exact complete_id e
      · rfl
    · intro e
      split
      · exact complete_attemptCount e
      · rfl
    · intro e
      split
      · exact le_of_eq (complete_maxAttempts e).symm
      · exact le_refl _
    · intro e he hs
      split at hs
      · next hid =>
          rw [if_pos hid, complete_attemptCount, complete_maxAttempts]
          exact complete_spare e hs
      · next hid =>
          rw [if_neg hid]
          exact h.spare e he hs
  · exact h

/-- What a completion in time does to an outbox whose books are sound. -/
structure Completes (o : Outbox A) (claim : Claim) (o' : Outbox A) : Prop where
  sound : Sound o'
  keeps : Keeps o o'
  allowance : KeepsAllowance o o'
  ends : ∀ a ∈ o.attempts, a.id = claim.attemptID →
    ∃ a' ∈ o'.attempts, a'.id = a.id ∧ a'.status ≠ .sending
  stays : ∀ a ∈ o.attempts, ∃ a' ∈ o'.attempts,
    a'.id = a.id ∧ a'.deliveryID = a.deliveryID

theorem Sound.completeAttempt (h : Sound o) (p : Pipeline A)
    (result : Except (SendError A) A) (completedAt : Int) {a₀ : Attempt A}
    (h₀ : Sending o claim a₀) :
    Completes o claim (completeAttempt p claim result completedAt o) := by
  obtain ⟨d₀, hd₀, hlease₀⟩ := h.leased a₀ h₀.mem h₀.sending
  have hdelivery : ∃ d, o.deliveries.find? (fun d =>
      decide (d.id = claim.deliveryID)) = some d :=
    Option.isSome_iff_exists.mp (List.find?_isSome.mpr ⟨d₀, hd₀,
      decide_eq_true (hlease₀.1.trans h₀.delivery)⟩)
  have hattempt : ∃ a, o.attempts.find? (fun a =>
      decide (a.id = claim.attemptID)) = some a :=
    Option.isSome_iff_exists.mp (List.find?_isSome.mpr ⟨a₀, h₀.mem,
      decide_eq_true h₀.id⟩)
  obtain ⟨d, hd⟩ := hdelivery
  obtain ⟨a, ha⟩ := hattempt
  have hcounted : Counted
      (Server.Notifications.completeAttempt p claim result completedAt o) :=
    h.toCounted.completeAttempt p result completedAt
  simp only [Server.Notifications.completeAttempt, hd, ha] at hcounted ⊢
  -- The delivery with the claim's id is the one that is leased.
  have hsame : ∀ e ∈ o.deliveries, e.id = claim.deliveryID → e = d₀ :=
    fun e he hid => h.delivery_ext he hd₀
      (hid.trans (hlease₀.1.trans h₀.delivery).symm)
  have hthis : ∀ b ∈ o.attempts, b.id = claim.attemptID → b = a₀ :=
    fun b hb hid => h.attempt_ext hb h₀.mem (hid.trans h₀.id.symm)
  have hkeys : ∀ b : Attempt A, ∀ b',
      b' = (if b.id = claim.attemptID then b.complete p result completedAt d
        else b) → b'.id = b.id ∧ b'.deliveryID = b.deliveryID ∧
          b'.attemptNumber = b.attemptNumber := by
    intro b b' hb'
    split at hb'
    · rw [hb']
      exact complete_keys d b
    · rw [hb']
      exact ⟨rfl, rfl, rfl⟩
  constructor
  · refine h.rewrite ?_ ?_ hcounted (fun b => hkeys b _ rfl) ?_
    · intro e
      split
      · exact complete_id e
      · rfl
    · intro e
      split
      · exact complete_attemptCount e
      · rfl
    · intro b hb hs
      split at hs
      · exact absurd hs (complete_ends d b)
      · next hid =>
          refine ⟨hs, ?_⟩
          intro e _ hlease
          split
          · next heid =>
              have hb₀ : b = a₀ := h.sending_ext hb h₀.mem hs h₀.sending
                (hlease.1.symm.trans (heid.trans h₀.delivery.symm))
              rw [hb₀] at hid
              exact absurd h₀.id hid
          · rfl
  · refine keeps_rewrite ?_ ?_
    · intro e he hs
      split
      · next hid =>
          rw [hsame e he hid, hlease₀.2.1] at hs
          cases hs
      · rfl
    · intro b hb hs
      split
      · next hid =>
          rw [hthis b hb hid] at hs
          exact absurd h₀.sending hs
      · rfl
  · refine keepsAllowance_map ?_ ?_
    · intro e
      split
      · exact complete_id e
      · rfl
    · intro e
      split
      · exact complete_maxAttempts e
      · rfl
  · intro b hb hid
    refine ⟨_, List.mem_map_of_mem hb, (hkeys b _ rfl).1, ?_⟩
    rw [if_pos hid]
    exact complete_ends d b
  · intro b hb
    exact ⟨_, List.mem_map_of_mem hb, (hkeys b _ rfl).1, (hkeys b _ rfl).2.1⟩

end Completing

/-! ## Queueing and the operator's retry -/

section Queueing

variable {p : Pipeline A} {o o' : Outbox A}

theorem enqueueAlertEvent_eq_some {ids : List String} {suppressed : Bool}
    {queuedAt : Int}
    (h : enqueueAlertEvent p ids suppressed queuedAt o = some o') :
    o' = o ∨ p.ready = true ∧ (o.deliveries.map (·.id) ++ ids).Nodup ∧
      o' = { o with
        deliveries := o.deliveries ++
          ids.map (queuedDelivery p suppressed queuedAt) } := by
  unfold enqueueAlertEvent at h
  split at h
  · next hready =>
      split at h
      · next hnodup => exact .inr ⟨hready, hnodup, (Option.some.inj h).symm⟩
      · cases h
  · exact .inl (Option.some.inj h).symm

theorem Counted.enqueue (h : Counted o) {ids : List String} (suppressed : Bool)
    (queuedAt : Int) (hready : p.ready = true)
    (hnodup : (o.deliveries.map (·.id) ++ ids).Nodup) :
    Counted { o with
      deliveries := o.deliveries ++
        ids.map (queuedDelivery p suppressed queuedAt) } := by
  have hpos : 0 < p.limits.maxAttempts := (p.inRange hready).maxAttempts.1
  have hids : (ids.map (queuedDelivery p suppressed queuedAt)).map (·.id) =
      ids := by
    rw [List.map_map]
    exact List.map_id' ids
  constructor
  · rw [List.map_append, hids]
    exact hnodup
  · intro d hd
    rcases List.mem_append.mp hd with hold | hnew
    · exact h.bounded d hold
    · obtain ⟨id, _, rfl⟩ := List.mem_map.mp hnew
      exact le_of_lt hpos
  · intro d hd hs
    rcases List.mem_append.mp hd with hold | hnew
    · exact h.spare d hold hs
    · obtain ⟨id, _, rfl⟩ := List.mem_map.mp hnew
      exact hpos

theorem Sound.enqueue (h : Sound o) {ids : List String} (suppressed : Bool)
    (queuedAt : Int) (hready : p.ready = true)
    (hnodup : (o.deliveries.map (·.id) ++ ids).Nodup) :
    Sound { o with
      deliveries := o.deliveries ++
        ids.map (queuedDelivery p suppressed queuedAt) } := by
  refine ⟨h.toCounted.enqueue suppressed queuedAt hready hnodup, h.attemptKeys,
    h.attemptNumbers, ?_, ?_⟩
  · intro a ha
    obtain ⟨d, hd, hnumber⟩ := h.numbered a ha
    exact ⟨d, List.mem_append_left _ hd, hnumber⟩
  · intro a ha hs
    obtain ⟨d, hd, hlease⟩ := h.leased a ha hs
    exact ⟨d, List.mem_append_left _ hd, hlease⟩

theorem retryDelivery_eq_ok {deliveryID requestID : String} {now : Int}
    (h : retryDelivery deliveryID requestID now o = .ok o') :
    o' = o ∨ ∃ d ∈ o.deliveries, d.id = deliveryID ∧ d.status = .failed ∧
      o' = { deliveries := o.deliveries.map fun d =>
              if d.id = deliveryID then d.retry requestID now else d
             attempts := o.attempts.map id } := by
  unfold retryDelivery at h
  split at h
  · cases h
  · next d hfind =>
      split at h
      · exact .inl (Except.ok.inj h).symm
      · split at h
        · cases h
        · next hstatus =>
            split at h
            · cases h
            · refine .inr ⟨d, List.mem_of_find?_eq_some hfind,
                by simpa using List.find?_some hfind, not_not.mp hstatus, ?_⟩
              rw [List.map_id]
              exact (Except.ok.inj h).symm

theorem Counted.retry (h : Counted o) (deliveryID requestID : String)
    (now : Int) :
    Counted { deliveries := o.deliveries.map fun d =>
                if d.id = deliveryID then d.retry requestID now else d
              attempts := o.attempts.map id } := by
  refine h.rewrite ?_ ?_ ?_ ?_
  · intro d
    split <;> rfl
  · intro d
    split <;> rfl
  · intro d
    split
    · exact le_max_left _ _
    · exact le_refl _
  · intro d hd hs
    split
    · exact lt_of_lt_of_le (Int.lt_succ d.attemptCount) (le_max_right _ _)
    · next hid =>
        rw [if_neg hid] at hs
        exact h.spare d hd hs

theorem Sound.retry (h : Sound o) {deliveryID : String} (requestID : String)
    (now : Int) {d₀ : Delivery A} (hd₀ : d₀ ∈ o.deliveries)
    (hid₀ : d₀.id = deliveryID) (hfailed : d₀.status = .failed) :
    Sound { deliveries := o.deliveries.map fun d =>
              if d.id = deliveryID then d.retry requestID now else d
            attempts := o.attempts.map id } := by
  refine h.rewrite ?_ ?_ (h.toCounted.retry deliveryID requestID now)
    (fun _ => ⟨rfl, rfl, rfl⟩) ?_
  · intro d
    split <;> rfl
  · intro d
    split <;> rfl
  · intro a _ hs
    refine ⟨hs, ?_⟩
    intro d hd hlease
    split
    · next hid =>
        have hsending := hlease.2.1
        rw [h.delivery_ext hd hd₀ (hid.trans hid₀.symm), hfailed] at hsending
        cases hsending
    · rfl

theorem keeps_retry (h : Sound o) {deliveryID requestID : String} {now : Int}
    {d₀ : Delivery A} (hd₀ : d₀ ∈ o.deliveries) (hid₀ : d₀.id = deliveryID)
    (hfailed : d₀.status = .failed) :
    Keeps o { deliveries := o.deliveries.map fun d =>
                if d.id = deliveryID then d.retry requestID now else d
              attempts := o.attempts.map id } := by
  refine keeps_rewrite ?_ fun _ _ _ => rfl
  intro d hd hs
  split
  · next hid =>
      rw [h.delivery_ext hd hd₀ (hid.trans hid₀.symm), hfailed] at hs
      cases hs
  · rfl

end Queueing

/-! ## Runs -/

/-- The claim whose completion takes effect with the event. -/
def completing (s : System A) : Event A → Option Claim
  | .complete worker _ _ => (s.workers worker).queue.head?
  | .completeRaises worker _ _ committed =>
    if committed then (s.workers worker).queue.head? else none
  | _ => none

/-- The attempt that is completed, if any, has not ended yet: its lease was not
recovered, and it has not been completed before. -/
def InTime (s : System A) (e : Event A) : Prop :=
  ∀ claim, completing s e = some claim → ∀ a ∈ s.outbox.attempts,
    a.id = claim.attemptID → a.status = .sending

/-- The event recovers the lease on a delivery. -/
def Recovers (p : Pipeline A) (s : System A) (deliveryID : String) :
    Event A → Prop
  | .claim _ lockedExpired _ _ now =>
    ∃ d ∈ expiredClaims p lockedExpired now s.outbox, d.id = deliveryID
  | _ => False

/-- The states runs reach from an empty outbox by events that `may` happen. -/
inductive Reaches (p : Pipeline A) (may : System A → Event A → Prop) :
    System A → Prop where
  | start : Reaches p may {}
  | step {s e t} (before : Reaches p may s) (allowed : may s e)
      (next : System.Step p s e t) : Reaches p may t

/-- What a step does not do to the deliveries and their attempts. -/
structure Owned (p : Pipeline A) (s : System A) (e : Event A) (t : System A) :
    Prop where
  /-- Rows are told apart by their ids. -/
  keys : (t.outbox.deliveries.map (·.id)).Nodup ∧
    (t.outbox.attempts.map (·.id)).Nodup
  delivered : ∀ d ∈ s.outbox.deliveries, d.status = .delivered →
    d ∈ t.outbox.deliveries
  /-- The completion of an attempt a newer one has superseded. -/
  superseded : ∀ claim, completing s e = some claim →
    ∀ a ∈ s.outbox.attempts, a.id = claim.attemptID →
      ∀ b ∈ s.outbox.attempts, b.deliveryID = a.deliveryID →
        a.attemptNumber < b.attemptNumber →
          t.outbox.deliveries = s.outbox.deliveries
  /-- An outcome is final. -/
  ended : ∀ a ∈ s.outbox.attempts, a.status ≠ .sending → a ∈ t.outbox.attempts
  /-- An attempt without an outcome is the one its delivery is sent under. -/
  sending : ∀ a ∈ t.outbox.attempts, a.status = .sending →
    ∃ d ∈ t.outbox.deliveries, Leases d a
  /-- It gets one when it is completed and when its lease is recovered. -/
  ends : ∀ a ∈ s.outbox.attempts,
    (∃ claim, completing s e = some claim ∧ a.id = claim.attemptID) ∨
      Recovers p s a.deliveryID e →
    ∃ a' ∈ t.outbox.attempts, a'.id = a.id ∧ a'.status ≠ .sending
  bounded : ∀ d ∈ t.outbox.deliveries, d.attemptCount ≤ d.maxAttempts
  allowance : ∀ d ∈ s.outbox.deliveries, ∃ d' ∈ t.outbox.deliveries,
    d'.id = d.id ∧ (d'.maxAttempts = d.maxAttempts ∨
      ∃ requestID now, e = .operatorRetry d.id requestID now)

/-- The books are sound, and workers hold claims on attempts there are. -/
structure Kept (s : System A) : Prop where
  sound : Sound s.outbox
  claimed : ∀ worker, ∀ claim ∈ (s.workers worker).queue,
    ∃ a ∈ s.outbox.attempts,
      a.id = claim.attemptID ∧ a.deliveryID = claim.deliveryID

theorem counted_start : Counted ({} : Outbox A) :=
  ⟨List.nodup_nil, fun _ hmem => absurd hmem List.not_mem_nil,
    fun _ hmem => absurd hmem List.not_mem_nil⟩

theorem kept_start : Kept ({} : System A) := by
  refine ⟨?_, fun _ _ hmem => absurd hmem List.not_mem_nil⟩
  exact ⟨counted_start, List.nodup_nil, List.nodup_nil,
    fun _ hmem => absurd hmem List.not_mem_nil,
    fun _ hmem => absurd hmem List.not_mem_nil⟩

section Steps

variable {p : Pipeline A} {s t : System A} {e : Event A}

/-- No attempt is lost, so claims on attempts stay claims on attempts. -/
theorem Kept.claimed_stays (h : Kept s) {worker : Nat} {o : Outbox A}
    {queue : List Claim}
    (hstays : ∀ a ∈ s.outbox.attempts, ∃ a' ∈ o.attempts,
      a'.id = a.id ∧ a'.deliveryID = a.deliveryID)
    (hqueue : ∀ c ∈ queue, c ∈ (s.workers worker).queue) :
    ∀ c ∈ queue, ∃ a ∈ o.attempts,
      a.id = c.attemptID ∧ a.deliveryID = c.deliveryID := by
  intro c hc
  obtain ⟨a, ha, hid, hdelivery⟩ := h.claimed worker c (hqueue c hc)
  obtain ⟨a', ha', hid', hdelivery'⟩ := hstays a ha
  exact ⟨a', ha', hid'.trans hid, hdelivery'.trans hdelivery⟩

theorem Kept.setWorker (h : Kept s) {worker : Nat} {w : Worker} {o : Outbox A}
    (hsound : Sound o)
    (hstays : ∀ a ∈ s.outbox.attempts, ∃ a' ∈ o.attempts,
      a'.id = a.id ∧ a'.deliveryID = a.deliveryID)
    (hqueue : ∀ claim ∈ w.queue, ∃ a ∈ o.attempts,
      a.id = claim.attemptID ∧ a.deliveryID = claim.deliveryID) :
    Kept (s.setWorker worker w o) := by
  refine ⟨hsound, ?_⟩
  intro v claim hclaim
  by_cases hv : v = worker
  · rw [hv] at hclaim
    rw [System.setWorker] at hclaim
    simp only [Function.update_self] at hclaim
    exact hqueue claim hclaim
  · rw [System.setWorker] at hclaim
    simp only [Function.update_of_ne hv] at hclaim
    exact h.claimed_stays hstays (fun _ hc => hc) claim hclaim

theorem queue_afterRaise (w : Worker) (result : Except (SendError A) A) :
    ∀ c ∈ (System.afterRaise w result).queue, c ∈ w.queue := by
  intro c hc
  cases result with
  | ok answer =>
      rw [System.afterRaise] at hc
      split at hc
      · cases hc
      · exact hc
  | error error => cases hc

/-- The attempt that is completed in time. -/
theorem Kept.sending (h : Kept s) {claim : Claim} {worker : Nat}
    {rest : List Claim} (hqueue : (s.workers worker).queue = claim :: rest)
    (hcompleting : completing s e = some claim) (htime : InTime s e) :
    ∃ a, Sending s.outbox claim a := by
  obtain ⟨a, ha, hid, hdelivery⟩ := h.claimed worker claim
    (by rw [hqueue]; exact List.mem_cons_self)
  exact ⟨a, ha, hid, hdelivery, htime claim hcompleting a ha hid⟩

/-- A step that completes nothing and recovers nothing. -/
theorem owned_of_keeps (hsound : Sound t.outbox)
    (hkeeps : Keeps s.outbox t.outbox)
    (hnone : completing s e = none) (hrecovers : ∀ id, ¬ Recovers p s id e)
    (hallowance : ∀ d ∈ s.outbox.deliveries, ∃ d' ∈ t.outbox.deliveries,
      d'.id = d.id ∧ (d'.maxAttempts = d.maxAttempts ∨
        ∃ requestID now, e = .operatorRetry d.id requestID now)) :
    Owned p s e t := by
  refine ⟨⟨hsound.deliveryKeys, hsound.attemptKeys⟩, hkeeps.delivered, ?_,
    hkeeps.ended, hsound.leased, ?_, hsound.bounded, hallowance⟩
  · intro claim hclaim
    rw [hnone] at hclaim
    cases hclaim
  · intro a _ hends
    rcases hends with ⟨claim, hclaim, _⟩ | hrecover
    · rw [hnone] at hclaim
      cases hclaim
    · exact absurd hrecover (hrecovers _)

theorem KeepsAllowance.orRetried (h : KeepsAllowance s.outbox t.outbox) :
    ∀ d ∈ s.outbox.deliveries, ∃ d' ∈ t.outbox.deliveries,
      d'.id = d.id ∧ (d'.maxAttempts = d.maxAttempts ∨
        ∃ requestID now, e = .operatorRetry d.id requestID now) := by
  intro d hd
  obtain ⟨d', hd', hid, hmax⟩ := h d hd
  exact ⟨d', hd', hid, .inl hmax⟩

/-- A step that completes an attempt in time. -/
theorem owned_of_completes (h : Sound s.outbox) {claim : Claim}
    {a : Attempt A} (ha : Sending s.outbox claim a)
    (hdone : Completes s.outbox claim t.outbox)
    (hcompleting : completing s e = some claim)
    (hrecovers : ∀ id, ¬ Recovers p s id e) : Owned p s e t := by
  refine ⟨⟨hdone.sound.deliveryKeys, hdone.sound.attemptKeys⟩,
    hdone.keeps.delivered, ?_, hdone.keeps.ended, hdone.sound.leased, ?_,
    hdone.sound.bounded, hdone.allowance.orRetried⟩
  · intro c hc b hb hid b' hb' hdelivery hlt
    rw [hcompleting] at hc
    cases hc
    rw [h.attempt_ext hb ha.mem (hid.trans ha.id.symm)] at hdelivery hlt
    exact absurd (h.newest ha.mem hb' ha.sending hdelivery) (not_le.mpr hlt)
  · intro b hb hends
    rcases hends with ⟨c, hc, hid⟩ | hrecover
    · rw [hcompleting] at hc
      cases hc
      exact hdone.ends b hb hid
    · exact absurd hrecover (hrecovers _)

theorem owned_of_claims {worker : Nat} {lockedExpired lockedDue : String → Bool}
    {uuid : String → String} {now : Int} {claims : List Claim}
    (hdone : Claims p lockedExpired now s.outbox claims t.outbox) :
    Owned p s (.claim worker lockedExpired lockedDue uuid now) t := by
  refine ⟨⟨hdone.sound.deliveryKeys, hdone.sound.attemptKeys⟩,
    hdone.keeps.delivered, fun _ hclaim => (by cases hclaim), hdone.keeps.ended,
    hdone.sound.leased, ?_, hdone.sound.bounded, hdone.allowance.orRetried⟩
  intro a ha hends
  rcases hends with ⟨c, hc, _⟩ | ⟨d, hd, hid⟩
  · cases hc
  · exact hdone.recovers d hd a ha hid

theorem Kept.step (h : Kept s) (htime : InTime s e)
    (hstep : System.Step p s e t) : Kept t ∧ Owned p s e t := by
  cases hstep with
  | @enqueue ids suppressed queuedAt o' queued =>
      rcases enqueueAlertEvent_eq_some queued with rfl | ⟨hready, hnodup, rfl⟩
      · exact ⟨h, owned_of_keeps h.sound (Keeps.refl _) rfl (fun _ => nofun)
          (keepsAllowance_refl _).orRetried⟩
      · have hsound := h.sound.enqueue suppressed queuedAt hready hnodup
        refine ⟨⟨hsound, h.claimed⟩, owned_of_keeps hsound ?_ rfl
          (fun _ => nofun) (KeepsAllowance.orRetried ?_)⟩
        · exact ⟨fun d hd _ => List.mem_append_left _ hd, fun a ha _ => ha⟩
        · exact fun d hd => ⟨d, List.mem_append_left _ hd, rfl, rfl⟩
  | @operatorRetry deliveryID requestID now o' retried =>
      rcases retryDelivery_eq_ok retried with rfl | ⟨d₀, hd₀, hid₀, hfailed, rfl⟩
      · exact ⟨h, owned_of_keeps h.sound (Keeps.refl _) rfl (fun _ => nofun)
          (keepsAllowance_refl _).orRetried⟩
      · have hsound := h.sound.retry requestID now hd₀ hid₀ hfailed
        refine ⟨⟨hsound, ?_⟩, owned_of_keeps hsound
          (keeps_retry h.sound hd₀ hid₀ hfailed) rfl (fun _ => nofun) ?_⟩
        · rw [List.map_id]
          exact h.claimed
        · intro d hd
          refine ⟨_, List.mem_map_of_mem hd, ?_, ?_⟩
          · split <;> rfl
          · split
            · next hid => exact .inr ⟨requestID, now, by rw [hid]⟩
            · exact .inl rfl
  | @claim worker lockedExpired lockedDue uuid now claims o' ready idle
      claimed =>
      have hdone := h.sound.claimDue claimed
      exact ⟨h.setWorker hdone.sound hdone.stays hdone.claimed,
        owned_of_claims hdone⟩
  | @complete worker result completedAt claim rest next admitted =>
      have hcompleting : completing s (.complete worker result completedAt) =
          some claim := by rw [completing, next, List.head?_cons]
      obtain ⟨a, ha⟩ := h.sending next hcompleting htime
      have hdone := h.sound.completeAttempt p result completedAt ha
      have hrest : ∀ c ∈ rest, c ∈ (s.workers worker).queue := by
        rw [next]
        exact fun c => List.mem_cons_of_mem claim
      exact ⟨h.setWorker hdone.sound hdone.stays
          (h.claimed_stays hdone.stays hrest),
        owned_of_completes h.sound ha hdone hcompleting fun _ => nofun⟩
  | @completeRaises worker result completedAt committed claim rest next
      admitted =>
      have hafter := queue_afterRaise (s.workers worker) result
      cases committed with
      | false =>
          exact ⟨h.setWorker h.sound (fun a ha => ⟨a, ha, rfl, rfl⟩)
              fun c hc => h.claimed worker c (hafter c hc),
            owned_of_keeps h.sound (Keeps.refl _) rfl (fun _ => nofun)
              (keepsAllowance_refl _).orRetried⟩
      | true =>
          have hcompleting : completing s
              (.completeRaises worker result completedAt true) = some claim := by
            rw [completing, if_pos rfl, next, List.head?_cons]
          obtain ⟨a, ha⟩ := h.sending next hcompleting htime
          have hdone := h.sound.completeAttempt p result completedAt ha
          exact ⟨h.setWorker hdone.sound hdone.stays
              (h.claimed_stays hdone.stays hafter),
            owned_of_completes h.sound ha hdone hcompleting fun _ => nofun⟩
  | @crash worker =>
      refine ⟨h.setWorker h.sound (fun a ha => ⟨a, ha, rfl, rfl⟩)
        fun _ hmem => absurd hmem List.not_mem_nil,
        owned_of_keeps h.sound (Keeps.refl _) rfl (fun _ => nofun)
          (keepsAllowance_refl _).orRetried⟩

theorem Counted.step (h : Counted s.outbox) (hstep : System.Step p s e t) :
    Counted t.outbox := by
  cases hstep with
  | enqueue queued =>
      rcases enqueueAlertEvent_eq_some queued with rfl | ⟨hready, hnodup, rfl⟩
      · exact h
      · exact h.enqueue _ _ hready hnodup
  | operatorRetry retried =>
      rcases retryDelivery_eq_ok retried with rfl | ⟨_, _, _, _, rfl⟩
      · exact h
      · exact h.retry _ _ _
  | claim ready idle claimed => exact h.claimDue claimed
  | @complete worker result completedAt _ _ next admitted =>
      exact h.completeAttempt p result completedAt
  | @completeRaises worker result completedAt committed _ _ next admitted =>
      cases committed with
      | false => exact h
      | true => exact h.completeAttempt p result completedAt
  | crash => exact h

end Steps

/-- The count needs no completion to come in time. -/
theorem Reaches.counted {p : Pipeline A} {may : System A → Event A → Prop}
    {s : System A} (h : Reaches p may s) : Counted s.outbox := by
  induction h with
  | start => exact counted_start
  | step _ _ next ih => exact ih.step next

theorem Reaches.kept {p : Pipeline A} {s : System A} (h : Reaches p InTime s) :
    Kept s := by
  induction h with
  | start => exact kept_start
  | step _ allowed next ih => exact (ih.step allowed next).1

/-! ## A lease that runs out -/

/-- The defaults. -/
def defaultLimits : Limits where
  batchSize := 25
  maxAttempts := 5
  backoffBaseSeconds := 30
  backoffMaxSeconds := 3600
  claimTimeoutSeconds := 300

def webhookDefaults : WebhookSettings where
  limits := defaultLimits
  inRange := by constructor <;> simp [defaultLimits]

def emailDefaults : EmailSettings where
  limits := defaultLimits
  otherProblems := []

section Late

variable (p : Pipeline A) (answer : A)

def unlocked : String → Bool := fun _ => false

/-- One delivery is queued. -/
def queued : Outbox A := (enqueueAlertEvent p ["d"] false 0 {}).getD {}

/-- A worker claims it and is slow to send it. -/
def claimed : List Claim × Outbox A :=
  (claimDue p unlocked unlocked (fun _ => "a1") (seconds 1) (queued p)).getD
    ([], {})

/-- Its lease has run out when another worker looks. -/
def reclaimed : List Claim × Outbox A :=
  (claimDue p unlocked unlocked (fun _ => "a2") (seconds 302)
    (claimed p).2).getD ([], {})

/-- The other worker delivers it. -/
def deliveredAgain : Outbox A :=
  completeAttempt p ⟨"d", "a2"⟩ (.ok answer) (seconds 303) (reclaimed p).2

/-- The send of the slow one fails at last. -/
def lateError : Except (SendError A) A :=
  .error { code := "network_error", retryable := true }

def overwritten : Outbox A :=
  completeAttempt p ⟨"d", "a1"⟩ lateError (seconds 304)
    (deliveredAgain p answer)

/-- The first worker sends. -/
def sendingState : System A :=
  System.setWorker { outbox := queued p } 0 { queue := [⟨"d", "a1"⟩] }
    (claimed p).2

/-- The second worker sends as well. -/
def resendingState : System A :=
  (sendingState p).setWorker 1 { queue := [⟨"d", "a2"⟩] } (reclaimed p).2

def deliveredState : System A :=
  (resendingState p).setWorker 1 {} (deliveredAgain p answer)

variable {p : Pipeline A} {answer : A}

/-- The first worker claims the delivery, and the second one recovers it. -/
def Reclaims (p : Pipeline A) : Prop :=
  p.ready = true ∧ enqueueAlertEvent p ["d"] false 0 {} = some (queued p) ∧
    claimDue p unlocked unlocked (fun _ => "a1") (seconds 1) (queued p) =
      some ([⟨"d", "a1"⟩], (claimed p).2) ∧
    claimDue p unlocked unlocked (fun _ => "a2") (seconds 302) (claimed p).2 =
      some ([⟨"d", "a2"⟩], (reclaimed p).2)

def reclaims : Event A := .claim 1 unlocked unlocked (fun _ => "a2") (seconds 302)

theorem reaches_claimed {may : System A → Event A → Prop}
    (hmay : ∀ s e, completing s e = none → may s e) (h : Reclaims p) :
    Reaches p may (sendingState p) := by
  obtain ⟨hready, hqueued, hclaimed, -⟩ := h
  have h₁ : Reaches p may { outbox := queued p } :=
    .step .start (hmay _ _ rfl) (.enqueue hqueued)
  exact .step h₁ (hmay _ _ rfl) (.claim hready rfl hclaimed)

theorem step_reclaims (h : Reclaims p) :
    System.Step p (sendingState p) reclaims (resendingState p) :=
  .claim h.1 rfl h.2.2.2

theorem step_delivers (answer : A) :
    System.Step p (resendingState p) (.complete 1 (.ok answer) (seconds 303))
      (deliveredState p answer) :=
  .complete rfl nofun

/-- What has been delivered is sent once more. -/
theorem not_owned_of_late (answer : A) (h : Reclaims p)
    (hlost : ∃ d ∈ (deliveredAgain p answer).deliveries,
      d.status = .delivered ∧ d ∉ (overwritten p answer).deliveries) :
    ¬ ∀ s e t, Reaches p (fun _ _ => True) s → System.Step p s e t →
      Owned p s e t := by
  intro hall
  have h₁ : Reaches p (fun _ _ => True) (sendingState p) :=
    reaches_claimed (fun _ _ _ => trivial) h
  have hlate : System.Step p (deliveredState p answer)
      (.complete 0 lateError (seconds 304))
      ((deliveredState p answer).setWorker 0 {} (overwritten p answer)) :=
    .complete rfl nofun
  have howned := hall _ _ _ ((h₁.step trivial (step_reclaims h)).step trivial
    (step_delivers answer)) hlate
  obtain ⟨d, hd, hdelivered, hgone⟩ := hlost
  exact hgone (howned.delivered d hd hdelivered)

/-- A lease is recovered and claimed again, and the attempt that then holds it
is completed: both steps are in order. -/
def OwnsReclaimed (p : Pipeline A) (answer : A) : Prop :=
  Owned p (sendingState p) reclaims (resendingState p) ∧
    Owned p (resendingState p) (.complete 1 (.ok answer) (seconds 303))
      (deliveredState p answer)

theorem owns_reclaimed
    (hall : ∀ s e t, Reaches p InTime s → InTime s e → System.Step p s e t →
      Owned p s e t) (h : Reclaims p)
    (hsending : ∀ a ∈ (reclaimed p).2.attempts, a.id = "a2" →
      a.status = .sending) : OwnsReclaimed p answer := by
  have hclaims : ∀ (s : System A) (e : Event A), completing s e = none →
      InTime s e := by
    intro s e hnone claim hclaim
    rw [hnone] at hclaim
    cases hclaim
  have hcompletes : InTime (resendingState p)
      (.complete 1 (.ok answer) (seconds 303)) := by
    intro claim hclaim a ha hid
    obtain rfl := Option.some.inj hclaim
    exact hsending a ha hid
  have hreached : Reaches p InTime (sendingState p) := reaches_claimed hclaims h
  have hstep := step_reclaims h
  exact ⟨hall _ _ _ hreached (hclaims _ _ rfl) hstep,
    hall _ _ _ (hreached.step (hclaims _ _ rfl) hstep) hcompletes
      (step_delivers answer)⟩

end Late

/-- In every run whose completions come in time, each step leaves the
deliveries and their attempts in order, for webhooks and for emails. -/
theorem lease_owns_delivery (w : WebhookSettings) (m : EmailSettings) :
    (∀ s e t, Reaches (webhookPipeline w) InTime s → InTime s e →
      System.Step (webhookPipeline w) s e t → Owned (webhookPipeline w) s e t) ∧
    (∀ s e t, Reaches (emailPipeline m) InTime s → InTime s e →
      System.Step (emailPipeline m) s e t → Owned (emailPipeline m) s e t) :=
  ⟨fun _ _ _ h htime hstep => (h.kept.step htime hstep).2,
    fun _ _ _ h htime hstep => (h.kept.step htime hstep).2⟩

theorem webhook_reclaims : Reclaims (webhookPipeline webhookDefaults) := by
  unfold Reclaims
  decide +kernel

theorem email_reclaims : Reclaims (emailPipeline emailDefaults) := by
  unfold Reclaims
  decide +kernel

theorem lease_owns_delivery_reclaimed :
    OwnsReclaimed (webhookPipeline webhookDefaults) 200 ∧
      OwnsReclaimed (emailPipeline emailDefaults) "m" := by
  obtain ⟨hwebhook, hemail⟩ := lease_owns_delivery webhookDefaults emailDefaults
  exact ⟨owns_reclaimed hwebhook webhook_reclaims (by decide +kernel),
    owns_reclaimed hemail email_reclaims (by decide +kernel)⟩

/-- A delivery is reported delivered, and sent again, webhook or email. -/
theorem late_completion_overwrites :
    (¬ ∀ s e t, Reaches (webhookPipeline webhookDefaults) (fun _ _ => True) s →
      System.Step (webhookPipeline webhookDefaults) s e t →
        Owned (webhookPipeline webhookDefaults) s e t) ∧
    (¬ ∀ s e t, Reaches (emailPipeline emailDefaults) (fun _ _ => True) s →
      System.Step (emailPipeline emailDefaults) s e t →
        Owned (emailPipeline emailDefaults) s e t) :=
  ⟨not_owned_of_late 200 webhook_reclaims (by decide +kernel),
    not_owned_of_late "m" email_reclaims (by decide +kernel)⟩

end NodeLink.Proofs.NotificationLeases
