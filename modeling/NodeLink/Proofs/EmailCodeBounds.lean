import NodeLink.Server.EmailCodes

/-!
# What bounds an emailed code

The attempts on a code are counted on a copy of its row and written back by key,
so guesses side by side are charged once; the codes that a send supersedes are
the ones its update sees, and the claim of a code asks whether it was consumed
and not whether it was superseded. None of that shows while calls follow one
another.

Runs where a code that is compared is as it was read and nobody else's charge on
it is pending, where a replay scan finds no live code, where a code that is
claimed was not superseded, where a send has superseded the live codes by the
time it commits, and where no charged call is rolled back, keep all bounds.
-/

namespace NodeLink.Proofs.EmailCodeBounds

open Lib Server.EmailCodes

variable {cfg : Config} {s s' : State} {x y z : Txn} {t u v id : Nat}
  {c d r : EmailCode} {m n : Charge}

/-! ## The invariant -/

/-- No code is compared yet. -/
def early : Stage → Bool
  | .matched _ => false
  | .answered _ => false
  | .flushed _ => false
  | .raised => false
  | _ => true

/-- The code that matched and is not claimed yet. -/
def matchedOf : Stage → Option Nat
  | .matched id => some id
  | _ => none

/-- A charge on a live code counts the comparisons with it, and the last one that
may be uses the code up. -/
structure Charged (cfg : Config) (s : State) (x : Txn) (m : Charge) : Prop where
  counts : s.isLive m.id = true → s.compared.count m.id ≤ m.attempts
  full : s.isLive m.id = true → cfg.codeMaxAttempts ≤ m.attempts →
    m.supersede = true ∨ matchedOf x.stage = some m.id ∨ x.consumed = some m.id

def loadedOf : Stage → List EmailCode
  | .loaded rows => rows
  | _ => []

/-- The codes a call has read and may charge, or has charged. -/
def named (x : Txn) : List Nat :=
  (loadedOf x.stage).map (·.id) ++ x.charge.toList.map (·.id)

/-- What a call under way may rely on. -/
structure Sound (cfg : Config) (s : State) (x : Txn) : Prop where
  early : early x.stage = true → x.charge = none ∧ x.consumed = none
  matched : ∀ id, matchedOf x.stage = some id →
    x.consumed = none ∧ ∃ m, x.charge = some m ∧ m.id = id
  consumed : ∀ id, x.consumed = some id → ∃ m, x.charge = some m ∧ m.id = id
  charged : ∀ m, x.charge = some m → Charged cfg s x m
  named : ∀ id ∈ named x, id < s.ids
  inserted : ∀ c, x.inserted = some c → c.attempts = 0

/-- Two calls charge different live codes. -/
def Apart (s : State) (x y : Txn) : Prop :=
  ∀ m n, x.charge = some m → y.charge = some n → m.id = n.id →
    s.isLive m.id = false

theorem Apart.symm (h : Apart s x y) : Apart s y x := by
  intro m n hm hn heq
  rw [heq]
  exact h n m hn hm heq.symm

/-- Nobody has charged the code and not committed. -/
def Uncharged (s : State) (id : Nat) : Prop :=
  ∀ t x m, s.txns.get t = some x → x.charge = some m → m.id ≠ id

/-- A live code that has not expired. -/
def usable (s : State) (c : EmailCode) : Bool :=
  c.live && decide (s.clock < c.expiresAt)

def OneUsable (s : State) : Prop := s.codes.countP (usable s) ≤ 1

structure Inv (cfg : Config) (s : State) : Prop where
  each : ∀ t x, s.txns.get t = some x → Sound cfg s x
  apart : ∀ t x u y, s.txns.get t = some x → s.txns.get u = some y → u ≠ t →
    Apart s x y
  old : ∀ r ∈ s.codes, r.id < s.ids
  seen : ∀ id ∈ s.compared, id < s.ids
  /-- What is not charged is counted by the row. -/
  counted : ∀ r ∈ s.codes, r.live = true → Uncharged s r.id →
    s.compared.count r.id ≤ r.attempts ∧ (r.attempts : Int) < cfg.codeMaxAttempts
  bounded : ∀ id, (s.compared.count id : Int) ≤ cfg.codeMaxAttempts
  known : ∀ e ∈ s.accepted, e.1 < s.ids
  /-- A code that was accepted is consumed, or held by the call that did. -/
  spent : ∀ r ∈ s.codes, (∃ e ∈ s.accepted, e.1 = r.id) → r.consumedAt ≠ none ∨
    ∃ t x, s.txns.get t = some x ∧ x.consumed = some r.id
  once : (s.accepted.map (·.1)).Nodup
  current : ∀ e ∈ s.accepted, e.2 = false
  one : OneUsable s

theorem inv_initial (hmax : 1 ≤ cfg.codeMaxAttempts) (clock : Int) :
    Inv cfg { clock } where
  each t x h := by cases h
  apart t x u y h := by cases h
  old r hr := by cases hr
  seen id hid := by cases hid
  counted r hr := by cases hr
  bounded id := by
    show (0 : Int) ≤ cfg.codeMaxAttempts
    omega
  known e he := by cases he
  spent r hr := by cases hr
  once := List.nodup_nil
  current e he := by cases he
  one := Nat.zero_le 1

/-! ## Rows -/

theorem isLive_iff : s.isLive id = true ↔ ∃ r ∈ s.codes, r.id = id ∧
    r.live = true := by
  rw [State.isLive, List.any_eq_true]
  constructor
  · intro ⟨r, hr, h⟩
    rw [Bool.and_eq_true, decide_eq_true_iff] at h
    exact ⟨r, hr, h⟩
  · intro ⟨r, hr, hid, hlive⟩
    refine ⟨r, hr, ?_⟩
    rw [Bool.and_eq_true, decide_eq_true_iff]
    exact ⟨hid, hlive⟩

theorem live_iff : r.live = true ↔ r.consumedAt = none ∧ r.supersededAt = none := by
  rw [EmailCode.live, Bool.and_eq_true, Option.isNone_iff_eq_none,
    Option.isNone_iff_eq_none]

/-! ## One call goes on -/

/-- The call is replaced by what it has become. -/
theorem Inv.put (h : Inv cfg s) (hx : s.txns.get t = some x)
    (hcharge : ∀ id, (∀ m, y.charge = some m → m.id ≠ id) →
      ∀ m, x.charge = some m → m.id ≠ id)
    (hconsumed : ∀ id, x.consumed = some id → y.consumed = some id)
    (hy : Sound cfg s y)
    (hapart : ∀ u z, s.txns.get u = some z → u ≠ t → Apart s y z) :
    Inv cfg { s with txns := s.txns.put t y } where
  each u z hz := by
    by_cases hu : u = t
    · rw [hu, Open.get_put] at hz
      cases hz
      exact ⟨hy.early, hy.matched, hy.consumed,
        fun m hm => ⟨(hy.charged m hm).counts, (hy.charged m hm).full⟩,
        hy.named, hy.inserted⟩
    · rw [Open.get_put_of_ne hu] at hz
      have hz := h.each u z hz
      exact ⟨hz.early, hz.matched, hz.consumed,
        fun m hm => ⟨(hz.charged m hm).counts, (hz.charged m hm).full⟩,
        hz.named, hz.inserted⟩
  apart u z v w hz hw hne := by
    by_cases hu : u = t
    · have hv : v ≠ t := fun hv => hne (hv.trans hu.symm)
      rw [hu, Open.get_put] at hz
      rw [Open.get_put_of_ne hv] at hw
      cases hz
      exact hapart v w hw hv
    · rw [Open.get_put_of_ne hu] at hz
      by_cases hv : v = t
      · rw [hv, Open.get_put] at hw
        cases hw
        exact (hapart u z hz hu).symm
      · rw [Open.get_put_of_ne hv] at hw
        exact h.apart u z v w hz hw hne
  old := h.old
  seen := h.seen
  counted r hr hlive hfree := by
    refine h.counted r hr hlive fun u z m hz hm => ?_
    by_cases hu : u = t
    · rw [hu, hx] at hz
      cases hz
      exact hcharge r.id (fun n hn => hfree t y n Open.get_put hn) m hm
    · exact hfree u z m ((Open.get_put_of_ne hu).trans hz) hm
  bounded := h.bounded
  known := h.known
  spent r hr he := by
    rcases h.spent r hr he with hconsumedAt | ⟨u, z, hz, hc⟩
    · exact Or.inl hconsumedAt
    · by_cases hu : u = t
      · rw [hu, hx] at hz
        cases hz
        exact Or.inr ⟨t, y, Open.get_put, hconsumed r.id hc⟩
      · exact Or.inr ⟨u, z, (Open.get_put_of_ne hu).trans hz, hc⟩
  once := h.once
  current := h.current
  one := h.one

/-- A step that charges and claims nothing. -/
structure Keeps (s : State) (x y : Txn) : Prop where
  charge : y.charge = x.charge
  consumed : y.consumed = x.consumed
  inserted : ∀ c, y.inserted = some c → c.attempts = 0 ∨
    ∃ d, x.inserted = some d ∧ d.attempts = c.attempts
  named : ∀ id ∈ named y, id ∈ named x ∨ id < s.ids
  early : early y.stage = true → early x.stage = true
  matched : matchedOf y.stage = matchedOf x.stage

theorem Keeps.refl : Keeps s x x :=
  ⟨rfl, rfl, fun c hc => Or.inr ⟨c, hc, rfl⟩, fun _ h => Or.inl h, fun h => h,
    rfl⟩

theorem Sound.keeps (h : Sound cfg s x) (hkeep : Keeps s x y) :
    Sound cfg s y where
  early hearly := by
    rw [hkeep.charge, hkeep.consumed]
    exact h.early (hkeep.early hearly)
  matched id hid := by
    rw [hkeep.charge, hkeep.consumed]
    exact h.matched id (hkeep.matched ▸ hid)
  consumed id hid := by
    rw [hkeep.charge]
    exact h.consumed id (hkeep.consumed ▸ hid)
  charged m hm := by
    have hm := h.charged m (hkeep.charge ▸ hm)
    refine ⟨hm.counts, ?_⟩
    rw [hkeep.matched, hkeep.consumed]
    exact hm.full
  named id hid := by
    rcases hkeep.named id hid with hold | hlt
    · exact h.named id hold
    · exact hlt
  inserted c hc := by
    rcases hkeep.inserted c hc with hzero | ⟨d, hd, hattempts⟩
    · exact hzero
    · exact hattempts.symm.trans (h.inserted d hd)

theorem Apart.keeps (h : Apart s x z) (hkeep : Keeps s x y) : Apart s y z :=
  fun m n hm hn heq => h m n (hkeep.charge ▸ hm) hn heq

theorem Inv.go_of_keeps (h : Inv cfg s) {step : Txn → Txn}
    (hstep : ∀ x, s.txns.get t = some x → Keeps s x (step x)) :
    Inv cfg (s.go t step) := by
  unfold State.go
  split
  · exact h
  · next x hx =>
      have hkeep := hstep x hx
      refine h.put hx (fun id hfree m hm => ?_) (fun id hid => ?_)
        ((h.each t x hx).keeps hkeep)
        fun u z hz hu => (h.apart t x u z hx hz hu).keeps hkeep
      · exact hfree m (hkeep.charge.trans hm)
      · exact hkeep.consumed.trans hid

theorem stands_eq_true {p : Txn → Bool} :
    s.stands t p = true ↔ ∃ x, s.txns.get t = some x ∧ p x = true := by
  unfold State.stands
  split
  · next hnone =>
      refine ⟨nofun, fun ⟨x, hx, _⟩ => ?_⟩
      rw [hnone] at hx
      cases hx
  · next x hx =>
      refine ⟨fun hp => ⟨x, hx, hp⟩, fun ⟨y, hy, hp⟩ => ?_⟩
      rw [hx] at hy
      cases hy
      exact hp

/-- A step from one stage without a match to another. -/
theorem keeps_of_stage (now : Int) (superseded : List Nat) {stage : Stage}
    (hearly : early stage = true → early x.stage = true)
    (hfrom : matchedOf x.stage = none) (hto : matchedOf stage = none)
    (hload : loadedOf stage = []) :
    Keeps s x { x with now, superseded, stage } where
  charge := rfl
  consumed := rfl
  inserted c hc := Or.inr ⟨c, hc, rfl⟩
  named id hid := by
    rw [named, hload] at hid
    exact Or.inl (List.mem_append_right _ hid)
  early := hearly
  matched := hto.trans hfrom.symm

theorem keeps_scan (hmay : x.mayScan = true) : Keeps s x (scan s x) := by
  unfold Txn.mayScan at hmay
  split at hmay
  · cases hmay
  · next hstage _ =>
      exact keeps_of_stage _ x.superseded
        (fun _ => by rw [hstage]; rfl) (by rw [hstage]; rfl) rfl rfl
  · next hstage =>
      exact keeps_of_stage _ x.superseded
        (fun _ => by rw [hstage]; rfl) (by rw [hstage]; rfl) rfl rfl
  · cases hmay

theorem keeps_supersede : Keeps s x (supersede s x) := by
  unfold supersede
  split
  · next ids hstage =>
      exact keeps_of_stage x.now _ (fun _ => by rw [hstage]; rfl)
        (by rw [hstage]; rfl) rfl rfl
  · exact .refl

theorem keeps_insert {code salt : String} (hmay : x.mayInsert = true) :
    Keeps s x (insertCode cfg s code salt x) := by
  unfold Txn.mayInsert at hmay
  split at hmay
  · next purpose hstage hrequest =>
      unfold insertCode
      rw [hrequest]
      refine ⟨rfl, rfl, fun c hc => ?_, fun id hid => Or.inl ?_, fun _ => ?_, ?_⟩
      · cases hc
        exact Or.inl rfl
      · exact List.mem_append_right _ hid
      · rw [hstage]
        rfl
      · rw [hstage]
        rfl
  · cases hmay

theorem keeps_fail (hstage : x.stage = .issued) : Keeps s x (fail s x) where
  charge := rfl
  consumed := rfl
  inserted c hc := by
    obtain ⟨d, hd, rfl⟩ := Option.map_eq_some_iff.mp hc
    exact Or.inr ⟨d, hd, rfl⟩
  named id hid := Or.inl (List.mem_append_right _ hid)
  early _ := by rw [hstage]; rfl
  matched := by rw [hstage]; rfl

theorem keeps_load {rows : List EmailCode} (hstage : x.stage = .begun)
    (hrows : ∀ row ∈ rows, row.id < s.ids) : Keeps s x (load s rows x) where
  charge := rfl
  consumed := rfl
  inserted c hc := Or.inr ⟨c, hc, rfl⟩
  named id hid := by
    rcases List.mem_append.mp hid with hload | hcharge
    · obtain ⟨row, hrow, rfl⟩ := List.mem_map.mp hload
      exact Or.inr (hrows row hrow)
    · exact Or.inl (List.mem_append_right _ hcharge)
  early _ := by rw [hstage]; rfl
  matched := by rw [hstage]; rfl

theorem keeps_replay {rows : List EmailCode} (hstage : x.stage = .unmatched) :
    Keeps s x (replay cfg rows x) := by
  unfold replay
  split
  · exact keeps_of_stage x.now x.superseded
      (fun _ => by rw [hstage]; rfl) (by rw [hstage]; rfl) rfl rfl
  · exact .refl

theorem keeps_flush : Keeps s x (flush s x) := by
  unfold flush
  split
  · next reason hstage =>
      refine keeps_of_stage x.now x.superseded
        (fun hearly => ?_) (by rw [hstage]; rfl) ?_ ?_
      · split at hearly <;> cases hearly
      · split <;> rfl
      · split <;> rfl
  · exact .refl

theorem go_eq {step : Txn → Txn} (hx : s.txns.get t = some x) :
    s.go t step = { s with txns := s.txns.put t (step x) } := by
  rw [State.go, hx]

/-! ## Comparing -/

/-- A charge is one more than the row that was read, and an attempt that is the
last one uses the code up unless it matches. -/
theorem attempt_charge {normalized email : String}
    (hm : (attempt cfg normalized email r).charge = some m) :
    m.id = r.id ∧ m.attempts = r.attempts + 1 ∧
      (cfg.codeMaxAttempts ≤ m.attempts → m.supersede = true ∨
        attempt cfg normalized email r = .matched m) := by
  unfold attempt at hm ⊢
  simp only at hm ⊢
  split at hm
  · next hno =>
      cases hm
      rw [if_pos hno]
      exact ⟨rfl, rfl, fun hfull => Or.inl (decide_eq_true hfull)⟩
  · next hyes =>
      rw [if_neg hyes]
      split at hm
      · next haddress =>
          cases hm
          exact ⟨rfl, rfl, fun _ => Or.inl rfl⟩
      · next haddress =>
          cases hm
          rw [if_neg haddress]
          exact ⟨rfl, rfl, fun _ => Or.inr rfl⟩

theorem judge_charge {now : Int} {normalized email : String}
    {rows : List EmailCode}
    (hm : (judge cfg now normalized email rows).2.charge = some m) :
    ∃ r ∈ rows, m.id = r.id ∧ m.attempts = r.attempts + 1 ∧
      (cfg.codeMaxAttempts ≤ m.attempts → m.supersede = true ∨
        (judge cfg now normalized email rows).2 = .matched m) := by
  induction rows with
  | nil => cases hm
  | cons row rows ih =>
      unfold judge at hm ⊢
      split at hm
      · next hexpired =>
          rw [if_pos hexpired]
          obtain ⟨r, hr, hcharge⟩ := ih hm
          exact ⟨r, List.mem_cons_of_mem _ hr, hcharge⟩
      · next hexpired =>
          rw [if_neg hexpired]
          exact ⟨row, List.mem_cons_self, attempt_charge hm⟩

/-- What a comparison leaves: its charge, the stage of it, nothing claimed. -/
theorem compare_spec {rows : List EmailCode} (hstage : x.stage = .loaded rows) :
    ((compareCode cfg x).consumed = x.consumed ∧
      (compareCode cfg x).inserted = x.inserted) ∧
    (early (compareCode cfg x).stage = true →
      (compareCode cfg x).charge = none ∨ (compareCode cfg x).charge = x.charge) ∧
    (∀ id, matchedOf (compareCode cfg x).stage = some id →
      ∃ m, (compareCode cfg x).charge = some m ∧ m.id = id) ∧
    ∀ m, (compareCode cfg x).charge = some m → x.charge = some m ∨
      ∃ r ∈ rows, m.id = r.id ∧ m.attempts = r.attempts + 1 ∧
        (cfg.codeMaxAttempts ≤ m.attempts → m.supersede = true ∨
          matchedOf (compareCode cfg x).stage = some m.id) := by
  unfold compareCode
  rw [hstage]
  split
  · next rows' presented _ heq hrequest =>
      cases heq
      generalize hj : judge cfg x.now (normalizeCode cfg.texts presented) x.email
        rows = result
      obtain ⟨lapsed, judgement⟩ := result
      have hcharge := fun m => @judge_charge cfg m x.now
        (normalizeCode cfg.texts presented) x.email rows
      rw [hj] at hcharge
      simp only
      refine ⟨⟨trivial, trivial⟩, fun hearly => ?_, fun id hid => ?_, fun m hm => ?_⟩
      · cases judgement with
        | unmatched => exact Or.inl rfl
        | refused _ _ => cases hearly
        | matched _ => cases hearly
      · cases judgement with
        | unmatched => cases hid
        | refused _ _ => cases hid
        | matched m =>
            cases hid
            exact ⟨m, rfl, rfl⟩
      · obtain ⟨r, hr, hid, hattempts, hfull⟩ := hcharge m hm
        refine Or.inr ⟨r, hr, hid, hattempts, fun hmax => ?_⟩
        rcases hfull hmax with hsup | hmatched
        · exact Or.inl hsup
        · refine Or.inr ?_
          simp only at hmatched
          rw [hmatched]
          rfl
  · next hother =>
      rw [hstage]
      exact ⟨⟨rfl, rfl⟩, fun _ => Or.inr rfl, nofun, fun m hm => Or.inl hm⟩

/-- Nothing is left to compare, unless nothing was compared. -/
theorem loadedOf_compare : loadedOf (compareCode cfg x).stage = [] ∨
    (compareCode cfg x).stage = x.stage := by
  unfold compareCode
  split
  · simp only
    split
    · exact Or.inl rfl
    · exact Or.inl rfl
    · exact Or.inl rfl
  · exact Or.inr rfl

/-- A call that has charged a code and claimed nothing. -/
structure Charges (cfg : Config) (s : State) (t : Nat) (x y : Txn) (m : Charge) :
    Prop where
  before : x.charge = none ∧ x.consumed = none
  charge : y.charge = some m
  consumed : y.consumed = none
  inserted : y.inserted = x.inserted
  stage : early y.stage = false
  named : m.id < s.ids
  matched : ∀ id, matchedOf y.stage = some id → m.id = id
  full : cfg.codeMaxAttempts ≤ m.attempts →
    m.supersede = true ∨ matchedOf y.stage = some m.id
  /-- The row is as it was read. -/
  row : ∀ r ∈ s.codes, r.id = m.id → r.live = true → r.attempts + 1 = m.attempts
  alone : s.isLive m.id = true → ∀ u z n, s.txns.get u = some z → u ≠ t →
    z.charge = some n → n.id ≠ m.id

/-- What a call that has charged a code names. -/
theorem named_lt_of_charges (hy : Charges cfg s t x y m) : ∀ id ∈ named y,
    id < s.ids := by
  intro id hid
  have hload : loadedOf y.stage = [] := by
    have hstage := hy.stage
    cases hs : y.stage with
    | loaded rows =>
        rw [hs] at hstage
        cases hstage
    | _ => rfl
  rw [named, hload, hy.charge] at hid
  rw [List.mem_singleton.mp hid]
  exact hy.named

/-- A charge on a code that is not live any more. -/
theorem inv_charge_dead (h : Inv cfg s) (hx : s.txns.get t = some x)
    (hy : Charges cfg s t x y m) (hdead : s.isLive m.id = false) :
    Inv cfg { s with txns := s.txns.put t y } := by
  have hsound := h.each t x hx
  refine h.put hx (fun id _ n hn => ?_) (fun id hid => ?_)
    ⟨fun hearly => ?_, fun id hid => ⟨hy.consumed, m, hy.charge, hy.matched id hid⟩,
      fun id hid => ?_, fun n hn => ?_, named_lt_of_charges hy, fun c hc => ?_⟩
    fun u z hz hu n n' hn hn' heq => ?_
  · rw [hy.before.1] at hn
    cases hn
  · rw [hy.before.2] at hid
    cases hid
  · rw [hy.stage] at hearly
    cases hearly
  · rw [hy.consumed] at hid
    cases hid
  · rw [hy.charge] at hn
    cases hn
    refine ⟨fun hlive => ?_, fun hlive => ?_⟩
    · rw [hdead] at hlive
      cases hlive
    · rw [hdead] at hlive
      cases hlive
  · rw [hy.inserted] at hc
    exact hsound.inserted c hc
  · rw [hy.charge] at hn
    cases hn
    exact hdead

/-- A charge on a live code, which is one more comparison. -/
theorem inv_charge_live (h : Inv cfg s) (hx : s.txns.get t = some x)
    (hy : Charges cfg s t x y m) (hlive : s.isLive m.id = true) :
    Inv cfg { s with
      txns := s.txns.put t y
      compared := m.id :: s.compared } := by
  have hsound := h.each t x hx
  obtain ⟨row, hrow, hrid, hrlive⟩ := isLive_iff.mp hlive
  have hfree : Uncharged s row.id := by
    intro u z n hz hn
    by_cases hu : u = t
    · rw [hu, hx] at hz
      cases hz
      rw [hy.before.1] at hn
      cases hn
    · rw [hrid]
      exact hy.alone hlive u z n hz hu hn
  obtain ⟨hcount, hlt⟩ := h.counted row hrow hrlive hfree
  have hattempts := hy.row row hrow hrid hrlive
  rw [hrid] at hcount
  have hother : ∀ id, id ≠ m.id →
      (m.id :: s.compared).count id = s.compared.count id :=
    fun id hne => List.count_cons_of_ne hne.symm
  have hsame : (m.id :: s.compared).count m.id = s.compared.count m.id + 1 :=
    List.count_cons_self
  have hget : ∀ u z, (s.txns.put t y).get u = some z →
      (u = t ∧ z = y) ∨ (u ≠ t ∧ s.txns.get u = some z) := by
    intro u z hz
    by_cases hu : u = t
    · rw [hu, Open.get_put] at hz
      exact Or.inl ⟨hu, (Option.some.inj hz).symm⟩
    · exact Or.inr ⟨hu, (Open.get_put_of_ne hu) ▸ hz⟩
  have hmine : ∀ u z, s.txns.get u = some z → u ≠ t → Apart s y z := by
    intro u z hz hu n n' hn hn' heq
    rw [hy.charge] at hn
    cases hn
    exact absurd heq.symm (hy.alone hlive u z n' hz hu hn')
  refine ⟨fun u z hz => ?_, fun u z v w hz hw hne => ?_, h.old,
    fun id hid => ?_, fun r hr hr' huncharged => ?_, fun id => ?_, h.known,
    fun r hr he => ?_, h.once, h.current, h.one⟩
  · rcases hget u z hz with ⟨_, rfl⟩ | ⟨hu, hz⟩
    · refine ⟨fun hearly => ?_, fun id hid =>
        ⟨hy.consumed, m, hy.charge, hy.matched id hid⟩, fun id hid => ?_,
        fun n hn => ?_, fun i hi => named_lt_of_charges hy i hi,
        fun c hc => ?_⟩
      · rw [hy.stage] at hearly
        cases hearly
      · rw [hy.consumed] at hid
        cases hid
      · rw [hy.charge] at hn
        cases hn
        refine ⟨fun _ => ?_, fun _ hmax => ?_⟩
        · show (m.id :: s.compared).count m.id ≤ m.attempts
          omega
        · rcases hy.full hmax with hsup | hmatched
          · exact Or.inl hsup
          · exact Or.inr (Or.inl hmatched)
      · rw [hy.inserted] at hc
        exact hsound.inserted c hc
    · have hz' := h.each u z hz
      refine ⟨hz'.early, hz'.matched, hz'.consumed, fun n hn =>
        ⟨fun hlive' => ?_, (hz'.charged n hn).full⟩, hz'.named, hz'.inserted⟩
      show (m.id :: s.compared).count n.id ≤ n.attempts
      rw [hother n.id (hy.alone hlive u z n hz hu hn)]
      exact (hz'.charged n hn).counts hlive'
  · rcases hget u z hz with ⟨hu, hzy⟩ | ⟨hu, hz'⟩
    · rcases hget v w hw with ⟨hv, _⟩ | ⟨hv, hw'⟩
      · exact absurd (hv.trans hu.symm) hne
      · rw [hzy]
        exact hmine v w hw' hv
    · rcases hget v w hw with ⟨_, hwy⟩ | ⟨_, hw'⟩
      · rw [hwy]
        exact (hmine u z hz' hu).symm
      · exact h.apart u z v w hz' hw' hne
  · rcases List.mem_cons.mp hid with heq | hid
    · rw [heq, ← hrid]
      exact h.old row hrow
    · exact h.seen id hid
  · have hne : r.id ≠ m.id :=
      fun heq => huncharged t y m Open.get_put hy.charge heq.symm
    show (m.id :: s.compared).count r.id ≤ r.attempts ∧ _
    rw [hother r.id hne]
    refine h.counted r hr hr' fun u z n hz hn => ?_
    by_cases hu : u = t
    · rw [hu, hx] at hz
      cases hz
      rw [hy.before.1] at hn
      cases hn
    · exact huncharged u z n ((Open.get_put_of_ne hu).trans hz) hn
  · by_cases hid : id = m.id
    · show ((m.id :: s.compared).count id : Int) ≤ cfg.codeMaxAttempts
      rw [hid, hsame]
      omega
    · show ((m.id :: s.compared).count id : Int) ≤ cfg.codeMaxAttempts
      rw [hother id hid]
      exact h.bounded id
  · rcases h.spent r hr he with hconsumed | ⟨u, z, hz, hc⟩
    · exact Or.inl hconsumed
    · have hu : u ≠ t := by
        intro hu
        rw [hu, hx] at hz
        cases hz
        rw [hy.before.2] at hc
        cases hc
      exact Or.inr ⟨u, z, (Open.get_put_of_ne hu).trans hz, hc⟩

/-! ## Clear actions -/

/-- The code that call `t` compares, if it is live, is as it was read, and nobody
else has charged it and not committed. -/
def Undisturbed (s : State) (t : Nat) (rows : List EmailCode) (id : Nat) : Prop :=
  (∀ r ∈ s.codes, r.id = id → r.live = true → ∀ row ∈ rows, row.id = id →
    row.attempts = r.attempts) ∧
  (s.isLive id = true → ∀ e ∈ s.txns.entries, e.1 ≠ t → ∀ n ∈ e.2.charge,
    n.id ≠ id)

/-- A send that leaves a usable code has superseded the others. -/
def SupersededAll (s : State) (x : Txn) : Prop :=
  ∀ c ∈ x.inserted, usable s c = true →
    ∀ d ∈ s.codes, usable s d = true → d.id ∈ x.superseded

/-- Conditions on a run: a code is compared undisturbed, a replay scan compares
no live code, a code that is claimed was not superseded, a send commits when it
has superseded the live codes, and a call that charged a code is not rolled
back. Overlapping charges are left out wherever a code is live, also those that
would not come to the limit. -/
def Clear (cfg : Config) (s : State) : Action → Prop
  | .compare t => ∀ x ∈ s.txns.get t, ∀ id ∈ x.compares cfg,
    Undisturbed s t (loadedOf x.stage) id
  | .replay t rows => s.replaying cfg t rows = []
  | .claim t => ∀ x ∈ s.txns.get t, ∀ id ∈ matchedOf x.stage,
    ∀ c ∈ s.unconsumed id, c.supersededAt = none
  | .commit t => ∀ x ∈ s.txns.get t, SupersededAll s x
  | .rollback t => ∀ x ∈ s.txns.get t, x.charge = none
  | _ => True

theorem inv_compare (h : Inv cfg s) (hx : s.txns.get t = some x)
    (hmay : x.mayCompare = true) (hclear : Clear cfg s (.compare t)) :
    Inv cfg (next cfg s (.compare t)) := by
  unfold Txn.mayCompare at hmay
  split at hmay
  · next rows hstage =>
      have hsound := h.each t x hx
      have hearly : early x.stage = true := by rw [hstage]; rfl
      obtain ⟨hnone, hunclaimed⟩ := hsound.early hearly
      obtain ⟨⟨hcons, hins⟩, _, hmatched, hcharge⟩ :=
        @compare_spec cfg x rows hstage
      have hcompares : x.compares cfg =
          ((compareCode cfg x).charge).map (·.id) := by
        rw [Txn.compares, hstage]
      show Inv cfg { s.go t (compareCode cfg) with
        compared := s.comparing cfg t ++ s.compared }
      rw [go_eq hx, State.comparing, hx]
      simp only
      rw [hcompares]
      cases hm : (compareCode cfg x).charge with
      | none =>
          have hkeep : Keeps s x (compareCode cfg x) := by
            refine ⟨hm.trans hnone.symm, hcons, fun c hc => ?_, fun id hid => ?_,
              fun _ => hearly, ?_⟩
            · rw [hins] at hc
              exact Or.inr ⟨c, hc, rfl⟩
            · rw [named, hm] at hid
              rcases @loadedOf_compare cfg x with hnil | hsame
              · rw [hnil] at hid
                cases hid
              · rw [hsame] at hid
                exact Or.inl (List.mem_append_left _ (by simpa using hid))
            · cases hid : matchedOf (compareCode cfg x).stage with
              | none => rw [hstage]; rfl
              | some id =>
                  obtain ⟨n, hn, _⟩ := hmatched id hid
                  rw [hm] at hn
                  cases hn
          have hgo : Inv cfg (s.go t (compareCode cfg)) :=
            h.go_of_keeps fun w hw => by
              rw [hx] at hw
              cases hw
              exact hkeep
          rw [go_eq hx] at hgo
          exact hgo
      | some m =>
          rcases hcharge m hm with hold | ⟨row, hrow, hid, hattempts, hfull⟩
          · rw [hnone] at hold
            cases hold
          · have hundisturbed : Undisturbed s t (loadedOf x.stage) m.id :=
              hclear x hx m.id (by
                rw [hcompares, hm]
                rfl)
            rw [hstage] at hundisturbed
            have hy : Charges cfg s t x (compareCode cfg x) m := by
              refine ⟨⟨hnone, hunclaimed⟩, hm, hcons.trans hunclaimed, hins, ?_,
                ?_, fun id hmid => ?_, hfull, fun r hr hrid hlive => ?_,
                fun hlive u z n hz hu => hundisturbed.2 hlive (u, z)
                  (Open.has_of_get hz) hu n⟩
              · cases hstage' : early (compareCode cfg x).stage with
                | false => rfl
                | true =>
                    rcases (@compare_spec cfg x rows hstage).2.1 hstage' with
                      hn | hn
                    · rw [hm] at hn
                      cases hn
                    · rw [hm, hnone] at hn
                      cases hn
              · refine hsound.named m.id (List.mem_append_left _ ?_)
                rw [hid, hstage]
                exact List.mem_map_of_mem hrow
              · obtain ⟨n, hn, hnid⟩ := hmatched id hmid
                rw [hm] at hn
                cases hn
                exact hnid
              · rw [hattempts,
                  hundisturbed.1 r hr hrid hlive row hrow hid.symm]
            cases hlive : s.isLive m.id with
            | false =>
                have hlog : (Option.map (·.id) (some m)).toList.filter s.isLive =
                    [] := by simp [hlive]
                rw [hlog]
                exact inv_charge_dead h hx hy hlive
            | true =>
                have hlog : (Option.map (·.id) (some m)).toList.filter s.isLive =
                    [m.id] := by simp [hlive]
                rw [hlog]
                exact inv_charge_live h hx hy hlive
  · cases hmay

/-! ## Claiming -/

theorem unconsumed_some (h : s.unconsumed id = some c) :
    c ∈ s.codes ∧ c.id = id ∧ c.consumedAt = none := by
  have hp := List.find?_some h
  rw [Bool.and_eq_true, decide_eq_true_iff, Option.isNone_iff_eq_none] at hp
  exact ⟨List.mem_of_find?_eq_some h, hp⟩

theorem unconsumed_none (h : s.unconsumed id = none) : s.isLive id = false := by
  cases hlive : s.isLive id with
  | false => rfl
  | true =>
      obtain ⟨r, hr, hid, hrlive⟩ := isLive_iff.mp hlive
      rw [State.unconsumed, List.find?_eq_none] at h
      refine absurd ?_ (h r hr)
      rw [Bool.and_eq_true, decide_eq_true_iff, Option.isNone_iff_eq_none]
      exact ⟨hid, (live_iff.mp hrlive).1⟩

theorem not_held {ids : List Nat} (h : s.held t ids = false)
    (hz : s.txns.get u = some z) (hu : u ≠ t) (hid : id ∈ z.locks) :
    id ∉ ids := by
  intro hmem
  have hfree := Open.not_of_other h (Open.has_of_get hz) hu
  rw [List.any_eq_false] at hfree
  exact hfree id hid (decide_eq_true hmem)

theorem consumed_mem_locks (h : z.consumed = some id) : id ∈ z.locks := by
  refine List.mem_append_left _ (List.mem_append_right _ ?_)
  rw [h]
  exact List.mem_singleton_self id

/-- The call claims the code that matched. -/
theorem inv_claim_some (h : Inv cfg s) (hx : s.txns.get t = some x)
    (hstage : x.stage = .matched id) (hfree : s.held t [id] = false)
    (hc : s.unconsumed id = some c) (hcurrent : c.supersededAt = none) :
    Inv cfg { s with
      txns := s.txns.put t
        { x with consumed := some id, stage := .answered .accepted }
      accepted := (id, c.supersededAt.isSome) :: s.accepted } := by
  have hsound := h.each t x hx
  obtain ⟨hunclaimed, m, hm, hmid⟩ := hsound.matched id (by rw [hstage]; rfl)
  obtain ⟨hmem, hcid, hopen⟩ := unconsumed_some hc
  have hnew : ∀ e ∈ s.accepted, e.1 ≠ id := by
    intro e he heq
    rcases h.spent c hmem ⟨e, he, heq.trans hcid.symm⟩ with hconsumed | ⟨u, z, hz, hzc⟩
    · exact hconsumed hopen
    · rw [hcid] at hzc
      by_cases hu : u = t
      · rw [hu, hx] at hz
        cases hz
        rw [hunclaimed] at hzc
        cases hzc
      · exact not_held hfree hz hu (consumed_mem_locks hzc)
          (List.mem_singleton_self id)
  have hget : ∀ u z, (s.txns.put t
        { x with consumed := some id, stage := .answered .accepted }).get u =
          some z →
      (u = t ∧ z = { x with consumed := some id, stage := .answered .accepted }) ∨
        (u ≠ t ∧ s.txns.get u = some z) := by
    intro u z hz
    by_cases hu : u = t
    · rw [hu, Open.get_put] at hz
      exact Or.inl ⟨hu, (Option.some.inj hz).symm⟩
    · exact Or.inr ⟨hu, (Open.get_put_of_ne hu) ▸ hz⟩
  refine ⟨fun u z hz => ?_, fun u z v w hz hw hne => ?_, h.old, h.seen,
    fun r hr hlive huncharged => ?_, h.bounded, fun e he => ?_,
    fun r hr he => ?_, ?_, fun e he => ?_, h.one⟩
  · rcases hget u z hz with ⟨_, rfl⟩ | ⟨hu, hz⟩
    · refine ⟨fun hearly => ?_, nofun, fun i hi => ?_, fun n hn => ?_,
        fun i hi => ?_, hsound.inserted⟩
      · cases hearly
      · cases hi
        exact ⟨m, hm, hmid⟩
      · have hn : x.charge = some n := hn
        rw [hm] at hn
        cases hn
        exact ⟨(hsound.charged m hm).counts, fun _ _ =>
          Or.inr (Or.inr (congrArg some hmid.symm))⟩
      · exact hsound.named i (List.mem_append_right _ hi)
    · have hz' := h.each u z hz
      exact ⟨hz'.early, hz'.matched, hz'.consumed,
        fun n hn => ⟨(hz'.charged n hn).counts, (hz'.charged n hn).full⟩,
        hz'.named, hz'.inserted⟩
  · rcases hget u z hz with ⟨hu, rfl⟩ | ⟨hu, hz'⟩
    · rcases hget v w hw with ⟨hv, _⟩ | ⟨hv, hw'⟩
      · exact absurd (hv.trans hu.symm) hne
      · exact h.apart t x v w hx hw' hv
    · rcases hget v w hw with ⟨_, hwy⟩ | ⟨_, hw'⟩
      · rw [hwy]
        exact (h.apart t x u z hx hz' hu).symm
      · exact h.apart u z v w hz' hw' hne
  · refine h.counted r hr hlive fun u z n hz hn => ?_
    by_cases hu : u = t
    · rw [hu, hx] at hz
      cases hz
      exact huncharged t _ n Open.get_put hn
    · exact huncharged u z n ((Open.get_put_of_ne hu).trans hz) hn
  · rcases List.mem_cons.mp he with rfl | he
    · rw [← hcid]
      exact h.old c hmem
    · exact h.known e he
  · obtain ⟨e, he, heq⟩ := he
    rcases List.mem_cons.mp he with rfl | he
    · refine Or.inr ⟨t, _, Open.get_put, ?_⟩
      rw [← heq]
    · rcases h.spent r hr ⟨e, he, heq⟩ with hconsumed | ⟨u, z, hz, hzc⟩
      · exact Or.inl hconsumed
      · have hu : u ≠ t := by
          intro hu
          rw [hu, hx] at hz
          cases hz
          rw [hunclaimed] at hzc
          cases hzc
        exact Or.inr ⟨u, z, (Open.get_put_of_ne hu).trans hz, hzc⟩
  · refine List.nodup_cons.mpr ⟨fun hmem => ?_, h.once⟩
    obtain ⟨e, he, heq⟩ := List.mem_map.mp hmem
    exact hnew e he heq
  · rcases List.mem_cons.mp he with rfl | he
    · rw [hcurrent]
      rfl
    · exact h.current e he

/-- The code is gone or consumed already. -/
theorem inv_claim_none (h : Inv cfg s) (hx : s.txns.get t = some x)
    (hstage : x.stage = .matched id) (hc : s.unconsumed id = none) :
    Inv cfg { s with
      txns := s.txns.put t { x with stage := .answered .alreadyConsumed } } := by
  have hsound := h.each t x hx
  obtain ⟨_, m, hm, hmid⟩ := hsound.matched id (by rw [hstage]; rfl)
  have hdead : s.isLive m.id = false := by
    rw [hmid]
    exact unconsumed_none hc
  refine h.put hx (fun _ hfree => hfree) (fun _ hid => hid)
    ⟨nofun, nofun, hsound.consumed, fun n hn => ?_, fun i hi =>
      hsound.named i (List.mem_append_right _ hi), hsound.inserted⟩
    fun u z hz hu => h.apart t x u z hx hz hu
  have hn : x.charge = some n := hn
  rw [hm] at hn
  cases hn
  refine ⟨fun hlive => ?_, fun hlive => ?_⟩
  · rw [hdead] at hlive
    cases hlive
  · rw [hdead] at hlive
    cases hlive

theorem inv_claim (h : Inv cfg s) (hx : s.txns.get t = some x)
    (hmay : x.mayClaim s t = true) (hclear : Clear cfg s (.claim t)) :
    Inv cfg (next cfg s (.claim t)) := by
  unfold Txn.mayClaim at hmay
  split at hmay
  · next id hstage =>
      rw [Bool.not_eq_true'] at hmay
      have hclaiming : s.claiming t =
          (s.unconsumed id).toList.map fun c => (id, c.supersededAt.isSome) := by
        rw [State.claiming, hx]
        simp only [hstage]
      show Inv cfg { s.go t (claim s) with accepted := s.claiming t ++ s.accepted }
      rw [go_eq hx, hclaiming, claim, hstage]
      simp only
      cases hc : s.unconsumed id with
      | none => exact inv_claim_none h hx hstage hc
      | some c =>
          exact inv_claim_some h hx hstage hmay hc (hclear x hx id (by rw [hstage]; rfl) c hc)
  · cases hmay

/-! ## Ending a call -/

theorem write_id (x : Txn) (r : EmailCode) : (x.write r).id = r.id := rfl

theorem write_expiresAt (x : Txn) (r : EmailCode) :
    (x.write r).expiresAt = r.expiresAt := rfl

theorem chargeOn_eq (hm : x.charge = some m) (hid : m.id = r.id) :
    x.chargeOn r.id = some m := by
  rw [Txn.chargeOn, hm]
  exact Option.filter_eq_some_iff.mpr ⟨rfl, decide_eq_true hid⟩

theorem chargeOn_none (h : ∀ m, x.charge = some m → m.id ≠ r.id) :
    x.chargeOn r.id = none := by
  rw [Txn.chargeOn, Option.filter_eq_none_iff]
  intro m hm hid
  exact h m hm (of_decide_eq_true hid)

/-- A row that is live after the write was live, and the call has neither
claimed nor superseded it. -/
theorem live_of_write (h : (x.write r).live = true) :
    r.live = true ∧ x.consumed ≠ some r.id ∧ r.id ∉ x.superseded ∧
      ∀ m, x.charge = some m → m.id = r.id → m.supersede = false := by
  obtain ⟨hconsumed, hsuperseded⟩ := live_iff.mp h
  simp only [Txn.write] at hconsumed hsuperseded
  split at hconsumed
  · cases hconsumed
  · next hnot =>
      split at hsuperseded
      · cases hsuperseded
      · next hkept =>
          rw [Bool.or_eq_true, Bool.or_eq_true, decide_eq_true_iff] at hkept
          refine ⟨live_iff.mpr ⟨hconsumed, hsuperseded⟩, hnot,
            fun hmem => hkept (Or.inl (Or.inl hmem)), fun m hm hid => ?_⟩
          cases hsup : m.supersede with
          | false => rfl
          | true =>
              refine absurd (Or.inr ?_) hkept
              rw [chargeOn_eq hm hid]
              exact hsup

theorem attempts_write_of_charge (hm : x.charge = some m) (hid : m.id = r.id) :
    (x.write r).attempts = m.attempts := by
  rw [Txn.write, chargeOn_eq hm hid]
  rfl

theorem attempts_write_of_ne (h : ∀ m, x.charge = some m → m.id ≠ r.id) :
    (x.write r).attempts = r.attempts := by
  rw [Txn.write, chargeOn_none h]
  rfl

theorem usable_iff : usable s r = true ↔ r.live = true ∧ s.clock < r.expiresAt := by
  rw [usable, Bool.and_eq_true, decide_eq_true_iff]

theorem usable_of_write (h : usable s (x.write r) = true) :
    usable s r = true ∧ r.id ∉ x.superseded := by
  obtain ⟨hlive, hfresh⟩ := usable_iff.mp h
  obtain ⟨hold, _, hkept, _⟩ := live_of_write hlive
  exact ⟨usable_iff.mpr ⟨hold, hfresh⟩, hkept⟩

/-- The number of usable codes, when a call commits. -/
theorem one_commit (h : OneUsable s) (hall : SupersededAll s x) (id : Nat) :
    (s.codes.map x.write ++
      x.inserted.toList.map fun c : EmailCode => { c with id := id }).countP (usable s) ≤ 1 := by
  have hold : (s.codes.map x.write).countP (usable s) ≤
      s.codes.countP (usable s) := by
    rw [List.countP_map]
    exact List.countP_mono_left fun r _ hr => (usable_of_write hr).1
  rw [List.countP_append]
  cases hins : x.inserted with
  | none => exact hold.trans h
  | some c =>
      have hone : ([c].map fun c : EmailCode => { c with id := id }).countP (usable s) ≤ 1 :=
        List.countP_le_length
      show _ + ([c].map fun c : EmailCode => { c with id := id }).countP (usable s) ≤ 1
      cases hc : usable s c with
      | false =>
          have hnone : ([c].map fun c : EmailCode => { c with id := id }).countP (usable s) =
              0 := by
            refine List.countP_eq_zero.mpr fun d hd => ?_
            rw [List.mem_singleton.mp hd]
            exact Bool.eq_false_iff.mp hc
          rw [hnone]
          exact hold.trans h
      | true =>
          have hnone : (s.codes.map x.write).countP (usable s) = 0 := by
            refine List.countP_eq_zero.mpr fun d hd husable => ?_
            obtain ⟨r, hr, rfl⟩ := List.mem_map.mp hd
            obtain ⟨hr', hkept⟩ := usable_of_write husable
            exact hkept (hall c hins hc r hr hr')
          rw [hnone]
          omega

theorem mem_named (hm : z.charge = some m) : m.id ∈ named z := by
  refine List.mem_append_right _ ?_
  rw [hm]
  exact List.mem_singleton_self m.id

/-- Fewer live codes and the same comparisons leave a call as it was. -/
theorem Sound.mono (h : Sound cfg s z)
    (hlive : ∀ id < s.ids, s'.isLive id = true → s.isLive id = true)
    (hcompared : s'.compared = s.compared) (hids : s.ids ≤ s'.ids) :
    Sound cfg s' z where
  early := h.early
  matched := h.matched
  consumed := h.consumed
  charged m hm := by
    have hlt : m.id < s.ids := h.named m.id (mem_named hm)
    refine ⟨fun hm' => ?_, fun hm' => (h.charged m hm).full (hlive m.id hlt hm')⟩
    rw [hcompared]
    exact (h.charged m hm).counts (hlive m.id hlt hm')
  named id hid := lt_of_lt_of_le (h.named id hid) hids
  inserted := h.inserted

theorem Apart.mono (h : Apart s y z) (hy : Sound cfg s y)
    (hlive : ∀ id < s.ids, s'.isLive id = true → s.isLive id = true) :
    Apart s' y z := by
  intro m n hm hn heq
  have hlt : m.id < s.ids := hy.named m.id (mem_named hm)
  rw [Bool.eq_false_iff]
  intro hm'
  exact Bool.eq_false_iff.mp (h m n hm hn heq) (hlive m.id hlt hm')

theorem get_of_close (hz : (s.txns.close t).get u = some z) :
    u ≠ t ∧ s.txns.get u = some z := by
  by_cases hu : u = t
  · rw [hu, Open.get_close] at hz
    cases hz
  · exact ⟨hu, Open.get_close_of_ne hu ▸ hz⟩

theorem matchedOf_of_mayCommit (h : x.mayCommit = true) :
    matchedOf x.stage = none := by
  unfold Txn.mayCommit at h
  cases hstage : x.stage with
  | matched id =>
      rw [hstage] at h
      cases h
  | _ => rfl

/-- Where the call has charged a row that is live after it, the row counts the
comparisons and is not used up. -/
theorem charged_write (h : Sound cfg s x) (hm : x.charge = some m)
    (hid : m.id = r.id) (hr : r ∈ s.codes) (hlive : (x.write r).live = true)
    (hmatched : matchedOf x.stage = none) :
    s.compared.count r.id ≤ (x.write r).attempts ∧
      ((x.write r).attempts : Int) < cfg.codeMaxAttempts := by
  obtain ⟨hold, hunclaimed, _, hkept⟩ := live_of_write hlive
  have hcharged := h.charged m hm
  have hmlive : s.isLive m.id = true := isLive_iff.mpr ⟨r, hr, hid.symm, hold⟩
  rw [attempts_write_of_charge hm hid, ← hid]
  refine ⟨hcharged.counts hmlive, ?_⟩
  by_contra hmax
  rcases hcharged.full hmlive (Int.not_lt.mp hmax) with hsup | hmat | hcons
  · rw [hkept m hm hid] at hsup
    cases hsup
  · rw [hmatched] at hmat
    cases hmat
  · exact hunclaimed (hcons.trans (congrArg some hid))

theorem inv_commit (hmax : 1 ≤ cfg.codeMaxAttempts) (h : Inv cfg s)
    (hx : s.txns.get t = some x) (hmay : x.mayCommit = true)
    (hall : SupersededAll s x) :
    Inv cfg { s with
      codes := s.codes.map x.write ++
        x.inserted.toList.map fun c => { c with id := s.ids }
      ids := s.ids + 1
      txns := s.txns.close t } := by
  have hsound := h.each t x hx
  have hmem : ∀ r ∈ s.codes.map x.write ++
      x.inserted.toList.map (fun c => { c with id := s.ids }),
      (∃ k ∈ s.codes, r = x.write k) ∨
        (r.id = s.ids ∧ r.attempts = 0) := by
    intro r hr
    rcases List.mem_append.mp hr with hr | hr
    · obtain ⟨k, hk, rfl⟩ := List.mem_map.mp hr
      exact Or.inl ⟨k, hk, rfl⟩
    · obtain ⟨c, hc, rfl⟩ := List.mem_map.mp hr
      exact Or.inr ⟨rfl, hsound.inserted c (Option.mem_toList.mp hc)⟩
  have hlive : ∀ id < s.ids, State.isLive { s with
      codes := s.codes.map x.write ++
        x.inserted.toList.map fun c => { c with id := s.ids }
      ids := s.ids + 1
      txns := s.txns.close t } id = true → s.isLive id = true := by
    intro id hlt hid
    obtain ⟨r, hr, hrid, hrlive⟩ := isLive_iff.mp hid
    rcases hmem r hr with ⟨k, hk, rfl⟩ | ⟨hnew, _⟩
    · exact isLive_iff.mpr ⟨k, hk, hrid, (live_of_write hrlive).1⟩
    · omega
  refine ⟨fun u z hz => ?_, fun u z v w hz hw hne => ?_, fun r hr => ?_,
    fun id hid => Nat.lt_succ_of_lt (h.seen id hid),
    fun r hr hrlive hfree => ?_, h.bounded,
    fun e he => Nat.lt_succ_of_lt (h.known e he), fun r hr he => ?_, h.once,
    h.current, one_commit h.one hall s.ids⟩
  · exact (h.each u z (get_of_close hz).2).mono hlive rfl (Nat.le_succ s.ids)
  · have hz' := (get_of_close hz).2
    exact (h.apart u z v w hz' (get_of_close hw).2 hne).mono (h.each u z hz') hlive
  · rcases hmem r hr with ⟨k, hk, rfl⟩ | ⟨hnew, _⟩
    · exact Nat.lt_succ_of_lt (h.old k hk)
    · show r.id < s.ids + 1
      omega
  · rcases hmem r hr with ⟨k, hk, rfl⟩ | ⟨hnew, hzero⟩
    · by_cases hcharge : ∃ m, x.charge = some m ∧ m.id = k.id
      · obtain ⟨m, hm, hid⟩ := hcharge
        exact charged_write hsound hm hid hk hrlive (matchedOf_of_mayCommit hmay)
      · have hne : ∀ m, x.charge = some m → m.id ≠ k.id :=
          fun m hm hid => hcharge ⟨m, hm, hid⟩
        rw [attempts_write_of_ne hne]
        refine h.counted k hk (live_of_write hrlive).1 fun u z m hz hm => ?_
        by_cases hu : u = t
        · rw [hu, hx] at hz
          cases hz
          exact hne m hm
        · exact hfree u z m ((Open.get_close_of_ne hu).trans hz) hm
    · have hcount : s.compared.count s.ids = 0 :=
        List.count_eq_zero.mpr fun hin => Nat.lt_irrefl _ (h.seen s.ids hin)
      show s.compared.count r.id ≤ r.attempts ∧ _
      rw [hnew, hcount, hzero]
      exact ⟨Nat.le_refl 0, by omega⟩
  · obtain ⟨e, he, heq⟩ := he
    rcases hmem r hr with ⟨k, hk, rfl⟩ | ⟨hnew, _⟩
    · rcases h.spent k hk ⟨e, he, heq⟩ with hconsumed | ⟨u, z, hz, hc⟩
      · refine Or.inl ?_
        simp only [Txn.write]
        split
        · exact Option.some_ne_none _
        · exact hconsumed
      · by_cases hu : u = t
        · rw [hu, hx] at hz
          cases hz
          refine Or.inl ?_
          simp only [Txn.write]
          rw [if_pos hc]
          exact Option.some_ne_none _
        · exact Or.inr ⟨u, z, (Open.get_close_of_ne hu).trans hz, hc⟩
    · have hlt := h.known e he
      omega

/-- A call that charged nothing ends without a trace. -/
theorem inv_rollback (h : Inv cfg s)
    (hnone : ∀ x, s.txns.get t = some x → x.charge = none) :
    Inv cfg { s with txns := s.txns.close t } := by
  refine ⟨fun u z hz => ?_, fun u z v w hz hw hne => ?_, h.old, h.seen,
    fun r hr hlive hfree => ?_, h.bounded, h.known, fun r hr he => ?_, h.once,
    h.current, h.one⟩
  · exact (h.each u z (get_of_close hz).2).mono (fun _ _ hl => hl) rfl le_rfl
  · have hz' := (get_of_close hz).2
    exact (h.apart u z v w hz' (get_of_close hw).2 hne).mono (h.each u z hz')
      fun _ _ hl => hl
  · refine h.counted r hr hlive fun u z m hz hm => ?_
    by_cases hu : u = t
    · rw [hu] at hz
      rw [hnone z hz] at hm
      cases hm
    · exact hfree u z m ((Open.get_close_of_ne hu).trans hz) hm
  · rcases h.spent r hr he with hconsumed | ⟨u, z, hz, hc⟩
    · exact Or.inl hconsumed
    · have hu : u ≠ t := by
        intro hu
        rw [hu] at hz
        obtain ⟨m, hm, _⟩ := (h.each t z hz).consumed r.id hc
        rw [hnone z hz] at hm
        cases hm
      exact Or.inr ⟨u, z, (Open.get_close_of_ne hu).trans hz, hc⟩

/-! ## Every action -/

/-- Fewer rows, later. -/
theorem Inv.fewer (h : Inv cfg s) {clock : Int} {p : EmailCode → Bool}
    (hclock : s.clock ≤ clock) :
    Inv cfg { s with clock, codes := s.codes.filter p } := by
  have hlive : ∀ id < s.ids,
      State.isLive { s with clock, codes := s.codes.filter p } id = true →
        s.isLive id = true := by
    intro id _ hid
    obtain ⟨r, hr, hrid, hrlive⟩ := isLive_iff.mp hid
    exact isLive_iff.mpr ⟨r, (List.mem_filter.mp hr).1, hrid, hrlive⟩
  refine ⟨fun u z hz => (h.each u z hz).mono hlive rfl le_rfl,
    fun u z v w hz hw hne => (h.apart u z v w hz hw hne).mono (h.each u z hz) hlive,
    fun r hr => h.old r (List.mem_filter.mp hr).1, h.seen,
    fun r hr => h.counted r (List.mem_filter.mp hr).1, h.bounded, h.known,
    fun r hr => h.spent r (List.mem_filter.mp hr).1, h.once, h.current, ?_⟩
  have hsub : (s.codes.filter p).countP (usable s) ≤ s.codes.countP (usable s) :=
    List.filter_sublist.countP_le
  refine (List.countP_mono_left fun r _ hr => ?_).trans (hsub.trans h.one)
  obtain ⟨hrlive, hfresh⟩ := usable_iff.mp hr
  exact usable_iff.mpr ⟨hrlive, Int.lt_of_le_of_lt hclock hfresh⟩

theorem inv_arrive (h : Inv cfg s) {email : String} {request : Request}
    (hfree : s.txns.get t = none) :
    Inv cfg { s with txns := s.txns.put t { request, email } } := by
  have hget : ∀ u z, (s.txns.put t { request, email }).get u = some z →
      (u = t ∧ z = { request, email }) ∨ s.txns.get u = some z := by
    intro u z hz
    by_cases hu : u = t
    · rw [hu, Open.get_put] at hz
      exact Or.inl ⟨hu, (Option.some.inj hz).symm⟩
    · exact Or.inr ((Open.get_put_of_ne hu) ▸ hz)
  have hput : ∀ u z, s.txns.get u = some z →
      (s.txns.put t { request, email }).get u = some z := by
    intro u z hz
    have hu : u ≠ t := by
      intro hu
      rw [hu, hfree] at hz
      cases hz
    exact (Open.get_put_of_ne hu).trans hz
  refine ⟨fun u z hz => ?_, fun u z v w hz hw hne => ?_, h.old, h.seen,
    fun r hr hlive huncharged => ?_, h.bounded, h.known, fun r hr he => ?_, h.once,
    h.current, h.one⟩
  · rcases hget u z hz with ⟨_, rfl⟩ | hz
    · refine ⟨fun _ => ⟨rfl, rfl⟩, fun id hid => ?_, fun id hid => ?_,
        fun m hm => ?_, fun id hid => ?_, fun c hc => ?_⟩
      · cases hid
      · cases hid
      · cases hm
      · cases hid
      · cases hc
    · exact (h.each u z hz).mono (fun _ _ hl => hl) rfl le_rfl
  · rcases hget u z hz with ⟨_, rfl⟩ | hz
    · intro m n hm
      cases hm
    · rcases hget v w hw with ⟨_, rfl⟩ | hw
      · intro m n _ hn
        cases hn
      · exact h.apart u z v w hz hw hne
  · exact h.counted r hr hlive fun u z m hz => huncharged u z m (hput u z hz)
  · rcases h.spent r hr he with hconsumed | ⟨u, z, hz, hc⟩
    · exact Or.inl hconsumed
    · exact Or.inr ⟨u, z, hput u z hz, hc⟩

theorem inv_next (hmax : 1 ≤ cfg.codeMaxAttempts) {a : Action} (h : Inv cfg s)
    (henabled : enabled cfg s a = true) (hclear : Clear cfg s a) :
    Inv cfg (next cfg s a) := by
  have hthe : ∀ {t x y}, s.txns.get t = some x → s.txns.get t = some y → x = y :=
    fun hx hy => Option.some.inj (hx.symm.trans hy)
  cases a with
  | tick n =>
      have hlater := @Inv.fewer cfg s h (s.clock + n) (fun _ => true) (by omega)
      rw [List.filter_true] at hlater
      exact hlater
  | arrive t email request => exact inv_arrive h (Option.isNone_iff_eq_none.mp henabled)
  | scan t =>
      obtain ⟨x, hx, hmay⟩ := stands_eq_true.mp henabled
      exact h.go_of_keeps fun y hy => keeps_scan (hthe hx hy ▸ hmay)
  | supersede t => exact h.go_of_keeps fun _ _ => keeps_supersede
  | insert t code salt =>
      obtain ⟨x, hx, hmay⟩ := stands_eq_true.mp henabled
      exact h.go_of_keeps fun y hy => keeps_insert (hthe hx hy ▸ hmay)
  | fail t =>
      obtain ⟨x, hx, hstage⟩ := stands_eq_true.mp henabled
      exact h.go_of_keeps fun y hy =>
        keeps_fail (hthe hx hy ▸ of_decide_eq_true hstage)
  | load t rows =>
      obtain ⟨x, hx, hmay⟩ := stands_eq_true.mp henabled
      refine h.go_of_keeps fun y hy => ?_
      rw [hthe hx hy] at hmay
      unfold Txn.mayLoad at hmay
      split at hmay
      · next hstage _ =>
          refine keeps_load hstage fun row hrow => ?_
          have hperm := List.isPerm_iff.mp (Bool.and_eq_true_iff.mp hmay).1
          exact h.old row (List.mem_filter.mp (hperm.mem_iff.mp hrow)).1
      · cases hmay
  | compare t =>
      obtain ⟨x, hx, hmay⟩ := stands_eq_true.mp henabled
      exact inv_compare h hx hmay hclear
  | claim t =>
      obtain ⟨x, hx, hmay⟩ := stands_eq_true.mp henabled
      exact inv_claim h hx hmay hclear
  | replay t rows =>
      obtain ⟨x, hx, hmay⟩ := stands_eq_true.mp henabled
      have hstage := of_decide_eq_true (Bool.and_eq_true_iff.mp hmay).1
      have hgo : Inv cfg (s.go t (replay cfg rows)) :=
        h.go_of_keeps fun y hy => keeps_replay (hthe hx hy ▸ hstage)
      show Inv cfg { s.go t (replay cfg rows) with
        compared := s.replaying cfg t rows ++ s.compared }
      rw [show s.replaying cfg t rows = [] from hclear]
      rw [go_eq hx] at hgo ⊢
      exact hgo
  | flush t => exact h.go_of_keeps fun _ _ => keeps_flush
  | commit t =>
      obtain ⟨x, hx, hmay⟩ := stands_eq_true.mp henabled
      have hinv := inv_commit hmax h hx hmay (hclear x hx)
      rw [next, hx]
      exact hinv
  | rollback t => exact inv_rollback h hclear
  | purge ids => exact h.fewer (Int.le_refl s.clock)

/-- What is said of the codes of an operator. -/
structure Bounded (cfg : Config) (s : State) : Prop where
  compared : ∀ id, (s.compared.count id : Int) ≤ cfg.codeMaxAttempts
  usable : OneUsable s
  current : ∀ e ∈ s.accepted, e.2 = false
  once : (s.accepted.map (·.1)).Nodup

/-- In every run whose actions are clear, the codes stay bounded. -/
theorem codes_bounded_while (hmax : 1 ≤ cfg.codeMaxAttempts) {clock : Int}
    {acts : List Action} (hruns : (system cfg).runs { clock } acts = true)
    (hclear : (system cfg).Each (Clear cfg) { clock } acts) :
    Bounded cfg ((system cfg).run { clock } acts) := by
  have h := System.invariant_run (I := Inv cfg)
    (fun _ _ h henabled hclear => inv_next hmax h henabled hclear)
    (inv_initial hmax clock) hruns hclear
  exact ⟨h.bounded, h.one, h.current, h.once⟩

/-! ## Calls side by side -/

/-- A salt of two characters in front of the code. -/
def sampleTexts : Texts where
  isDigit := Char.isDigit
  lower value := value
  hashpw code salt := salt ++ code
  checkpw code hash :=
    decide (hash = String.ofList (hash.toList.take 2) ++ code)

def sampleConfig : Config where
  texts := sampleTexts

def sampleEmail : String := "op@example.test"

/-- A send, up to its commit. -/
def send (t : Nat) (code : String) : List Action :=
  [.arrive t sampleEmail (.issue .login), .scan t, .supersede t,
    .insert t code "s1", .commit t]

def sampleCode (id : Nat) (code : String) : EmailCode where
  id := id
  purpose := .login
  codeHash := "s1" ++ code
  address := sampleEmail
  createdAt := 0
  expiresAt := 600000000

/-- A call that has read the code and not compared yet. -/
def reading (t : Nat) (presented : String) (rows : List EmailCode) :
    List Action :=
  [.arrive t sampleEmail (.consume presented .login), .load t rows]

instance (rows : List EmailCode) : Decidable (Undisturbed s t rows id) :=
  inferInstanceAs (Decidable (_ ∧ _))

instance : Decidable (SupersededAll s x) :=
  inferInstanceAs (Decidable (∀ c ∈ x.inserted, _))

instance (a : Action) : Decidable (Clear cfg s a) :=
  match a with
  | .compare t =>
    inferInstanceAs (Decidable (∀ x ∈ s.txns.get t, ∀ id ∈ x.compares cfg,
      Undisturbed s t (loadedOf x.stage) id))
  | .replay t rows =>
    inferInstanceAs (Decidable (s.replaying cfg t rows = []))
  | .claim t =>
    inferInstanceAs (Decidable (∀ x ∈ s.txns.get t, ∀ id ∈ matchedOf x.stage,
      ∀ c ∈ s.unconsumed id, c.supersededAt = none))
  | .commit t =>
    inferInstanceAs (Decidable (∀ x ∈ s.txns.get t, SupersededAll s x))
  | .rollback t =>
    inferInstanceAs (Decidable (∀ x ∈ s.txns.get t, x.charge = none))
  | .tick _ | .arrive _ _ _ | .scan _ | .supersede _ | .insert _ _ _ | .fail _
  | .load _ _ | .flush _ | .purge _ => isTrue trivial

/-- One wrong guess and then the code. -/
def inTurn : List Action :=
  send 1 "123456" ++
  reading 2 "000000" [sampleCode 0 "123456"] ++ [.compare 2, .flush 2, .commit 2] ++
  reading 3 "123456" [{ sampleCode 0 "123456" with attempts := 1 }] ++
    [.compare 3, .claim 3, .flush 3, .commit 3]

theorem codes_bounded_while_sample :
    ((system sampleConfig).run {} inTurn).accepted = [(0, false)] ∧
      Bounded sampleConfig ((system sampleConfig).run {} inTurn) :=
  ⟨by decide +kernel, codes_bounded_while (by decide) (by decide +kernel)
    (by decide +kernel)⟩

/-- Six guesses that have all read the code before the first is compared. -/
def parallelGuesses : List Action :=
  let guesses := [2, 3, 4, 5, 6, 7]
  send 1 "123456" ++
  guesses.flatMap (fun t => reading t "000000" [sampleCode 0 "123456"]) ++
  guesses.map .compare

/-- Two sends, each with nothing to supersede. -/
def parallelSends : List Action :=
  let arrive t := Action.arrive t sampleEmail (.issue .login)
  [arrive 1, arrive 2, .scan 1, .scan 2, .supersede 1, .supersede 2,
    .insert 1 "123456" "s1", .insert 2 "654321" "s1", .commit 1, .commit 2]

/-- A code that is superseded after it was read. -/
def overtaken : List Action :=
  send 1 "123456" ++ reading 2 "123456" [sampleCode 0 "123456"] ++
  send 3 "654321" ++ [.compare 2, .claim 2, .flush 2, .commit 2]

/-- Guesses side by side are more than there may be, sends side by side leave two
usable codes, and a code that another send superseded is accepted. -/
theorem codes_not_bounded :
    ((system sampleConfig).runs {} parallelGuesses = true ∧
      ¬ Bounded sampleConfig ((system sampleConfig).run {} parallelGuesses)) ∧
    ((system sampleConfig).runs {} parallelSends = true ∧
      ¬ Bounded sampleConfig ((system sampleConfig).run {} parallelSends)) ∧
    (system sampleConfig).runs {} overtaken = true ∧
      ¬ Bounded sampleConfig ((system sampleConfig).run {} overtaken) := by
  refine ⟨⟨by decide +kernel, fun h => ?_⟩, ⟨by decide +kernel, fun h => ?_⟩,
    by decide +kernel, fun h => ?_⟩
  · have hcount : ((system sampleConfig).run {} parallelGuesses).compared =
        [0, 0, 0, 0, 0, 0] := by decide +kernel
    have hbound := h.compared 0
    rw [hcount] at hbound
    exact absurd hbound (by decide)
  · exact absurd h.usable (by
      rw [OneUsable]
      decide +kernel)
  · exact absurd (h.current (0, true) (by decide +kernel)) (by decide)

end NodeLink.Proofs.EmailCodeBounds
