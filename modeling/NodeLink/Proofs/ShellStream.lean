import Mathlib
import NodeLink.Lib.Numbered
import NodeLink.Agent.ShellInput

/-!
# One direction of a shell session

Whatever is pushed, acknowledged and read, in whatever order, the queue holds
the accepted frames past the eviction mark, and a reader that goes on from its
cursor puts the accepted frames together without a gap or a repeat, until it is
told that what it asks for is gone.
-/

namespace NodeLink.Proofs.ShellStream

open Lib Server Agent

/-- A direction with everything that passed through it: the frames it accepted,
the acknowledgements it took, what one reader received from the cursor it began
with, and the agent's poll. -/
structure ShellTraffic where
  relay : SessionRelay
  accepted : List RelayFrame := []
  acked : List Int := []
  began : Int
  cursor : Int
  received : List RelayFrame := []
  poll : InputPoll := {}

/-- A fresh direction, and a reader that begins at a cursor of its choice. -/
def ShellTraffic.fresh (startSeq : Int) (maxBytes maxFrames : Nat)
    (began : Int) : ShellTraffic where
  relay :=
    { direction := Direction.new startSeq maxBytes maxFrames, closed := false }
  began
  cursor := began

inductive ShellEvent where
  /-- A push. -/
  | push (frame : RelayFrame)
  /-- A look at any cursor: another reader, or one whose answer is lost. -/
  | look (ack : Option Int) (cursor : Int) (limit : Nat)
  /-- The reader looks from its cursor. -/
  | read (ack : Option Int) (limit : Nat)
  /-- The agent polls, or its poll wakes from the wait. -/
  | poll (woken : Bool) (limit : Nat)
  | close

namespace ShellTraffic

def direction (t : ShellTraffic) : Direction := t.relay.direction

/-- The traffic after a look, with the acknowledgement if it was taken. -/
def looked (ack : Option Int) (cursor : Int) (limit : Nat) (t : ShellTraffic) :
    ShellTraffic :=
  { t with
    relay := { t.relay with
      direction := (t.direction.look ack cursor limit).1 }
    acked := (ack.toList.filter fun a =>
      (t.direction.acknowledge a).toOption.isSome) ++ t.acked }

/-- What a look answers. -/
def answer (ack : Option Int) (cursor : Int) (limit : Nat) (t : ShellTraffic) :
    Except RelayError (List RelayFrame) :=
  (t.direction.look ack cursor limit).2

/-- The reader with a batch it received. -/
def receive (batch : List RelayFrame) (t : ShellTraffic) : ShellTraffic :=
  { t with
    received := t.received ++ batch
    cursor := lastNumber RelayFrame.seq t.cursor batch }

def pushed (sha256 : Bytes → Bytes) (frame : RelayFrame) (t : ShellTraffic) :
    ShellTraffic :=
  match t.relay.append sha256 frame with
  | .error _ => t
  | .ok (relay, false) => { t with relay }
  | .ok (relay, true) => { t with relay, accepted := t.accepted ++ [frame] }

/-- The acknowledgement of the agent's poll; a woken one makes none. -/
def pollAck (woken : Bool) (t : ShellTraffic) : Option Int :=
  if woken then none else some t.poll.ack

def step (sha256 : Bytes → Bytes) (t : ShellTraffic) : ShellEvent → ShellTraffic
  | .push frame => t.pushed sha256 frame
  | .look ack cursor limit => t.looked ack cursor limit
  | .read ack limit =>
    match t.answer ack t.cursor limit with
    | .error _ => t.looked ack t.cursor limit
    | .ok batch => (t.looked ack t.cursor limit).receive batch
  | .poll woken limit =>
    if t.poll.ended.isSome then t
    else
      { t.looked (t.pollAck woken) t.poll.after limit with
        poll := t.poll.answered (t.answer (t.pollAck woken) t.poll.after limit) }
  | .close => { t with relay := { t.relay with closed := true } }

/-- The traffic after a sequence of events. -/
def run (sha256 : Bytes → Bytes) (t : ShellTraffic) (events : List ShellEvent) :
    ShellTraffic :=
  events.foldl (step sha256) t

end ShellTraffic

/-! ## The queue -/

/-- The counters of a direction agree with its queue. -/
structure Intact (d : Direction) : Prop where
  contiguous : NumberedFrom RelayFrame.seq d.evictedThrough d.frames
  last : d.evictedThrough + d.frames.length = d.lastSeq
  bytes : d.bufferedBytes = (d.frames.map fun f => (f.byteLength : Int)).sum
  limit : d.bufferedBytes ≤ d.maxBytes
  evicted : d.evictedThrough ≤ d.sentHighWater
  sent : d.sentHighWater ≤ d.lastSeq

theorem intact_new (startSeq : Int) (maxBytes maxFrames : Nat) :
    Intact (Direction.new startSeq maxBytes maxFrames) where
  contiguous := trivial
  last := Int.add_zero startSeq
  bytes := rfl
  limit := Int.natCast_nonneg maxBytes
  evicted := Int.le_refl startSeq
  sent := Int.le_refl startSeq

/-- What the loop of an acknowledgement takes from the queue. -/
theorem evict_spec {ack through : Int} {frames : List RelayFrame}
    (h : NumberedFrom RelayFrame.seq through frames) (bytes : Int) :
    ∃ removed, frames = removed ++ (evict ack frames bytes through).1 ∧
      (evict ack frames bytes through).2.1 =
        bytes - (removed.map fun f => (f.byteLength : Int)).sum ∧
      (evict ack frames bytes through).2.2 = through + removed.length ∧
      (∀ f ∈ removed, f.seq ≤ ack) ∧
      ∀ f ∈ (evict ack frames bytes through).1, ack < f.seq := by
  induction frames generalizing through bytes with
  | nil => exact ⟨[], rfl, by simp [evict], by simp [evict], nofun, nofun⟩
  | cons f rest ih =>
      obtain ⟨hf, hrest⟩ := h
      rw [evict]
      split
      · next hle =>
          rw [hf] at hle ⊢
          obtain ⟨removed, hsplit, hbytes, hthrough, hgone, hstay⟩ :=
            ih hrest (bytes - f.byteLength)
          refine ⟨f :: removed, ?_, ?_, ?_, ?_, hstay⟩
          · rw [List.cons_append, ← hsplit]
          · rw [hbytes, List.map_cons, List.sum_cons]
            omega
          · rw [hthrough, List.length_cons]
            omega
          · intro g hg
            rcases List.mem_cons.mp hg with rfl | hg
            · omega
            · exact hgone g hg
      · next hgt =>
          refine ⟨[], rfl, by simp, by simp, nofun, fun g hg => ?_⟩
          have := (NumberedFrom.bounds (l := f :: rest) ⟨hf, hrest⟩ hg).1
          omega

/-- What a push that is not refused does. -/
theorem append_cases {sha256 : Bytes → Bytes} {frame : RelayFrame}
    {d d' : Direction} {new : Bool}
    (h : d.append sha256 frame = .ok (d', new)) :
    (new = false ∧ d' = d) ∨
    (new = true ∧ frame.seq = d.lastSeq + 1 ∧
      d.bufferedBytes + frame.byteLength ≤ d.maxBytes ∧
      d' = { d with
        frames := d.frames ++ [frame]
        bufferedBytes := d.bufferedBytes + frame.byteLength
        lastSeq := frame.seq
        recentDigests := (frame.seq, frame.digest sha256) ::
          d.recentDigests.filter fun entry => entry.1 ≠ frame.seq }) := by
  rw [Direction.append] at h
  split at h
  · split at h
    · cases h
      exact .inl ⟨rfl, rfl⟩
    · cases h
  · split at h
    · cases h
    · next hseq =>
        split at h
        · cases h
        · next hroom =>
            cases h
            exact .inr ⟨rfl, by omega, by omega, rfl⟩

theorem Intact.append {sha256 : Bytes → Bytes} {frame : RelayFrame}
    {d d' : Direction} {new : Bool} (hd : Intact d)
    (h : d.append sha256 frame = .ok (d', new)) : Intact d' := by
  rcases append_cases h with ⟨-, rfl⟩ | ⟨-, hseq, hroom, rfl⟩
  · exact hd
  · have hlast := hd.last
    have hsent := hd.sent
    refine ⟨?_, ?_, ?_, hroom, hd.evicted, ?_⟩
    · refine numberedFrom_append.mpr ⟨hd.contiguous, ?_, trivial⟩
      rw [hlast, hseq]
    · simp only [List.length_append, List.length_singleton]
      omega
    · rw [List.map_append, List.sum_append, ← hd.bytes]
      simp
    · show d.sentHighWater ≤ frame.seq
      omega

theorem sum_byteLength_nonneg (frames : List RelayFrame) :
    0 ≤ (frames.map fun f => (f.byteLength : Int)).sum := by
  induction frames with
  | nil => exact Int.le_refl 0
  | cons f rest ih =>
      rw [List.map_cons, List.sum_cons]
      omega

/-- What an acknowledgement that is not refused does. -/
theorem acknowledge_cases {ack : Int} {d d' : Direction} (hd : Intact d)
    (h : d.acknowledge ack = .ok d') :
    0 ≤ ack ∧ ack ≤ d.sentHighWater ∧ Intact d' ∧
      d'.lastSeq = d.lastSeq ∧ d'.sentHighWater = d.sentHighWater ∧
      d'.evictedThrough = max d.evictedThrough ack ∧
      (∃ removed, d.frames = removed ++ d'.frames ∧
        d'.evictedThrough = d.evictedThrough + removed.length) ∧
      d'.recentDigests = d.recentDigests.filter fun entry =>
        ¬ entry.1 < max 0 (ack - 32) := by
  rw [Direction.acknowledge] at h
  split at h
  · cases h
  · next hack =>
      cases h
      obtain ⟨removed, hsplit, hbytes, hthrough, hgone, hstay⟩ :=
        evict_spec hd.contiguous d.bufferedBytes
      have hcontiguous := hd.contiguous
      rw [hsplit, numberedFrom_append] at hcontiguous
      have hlength := congrArg List.length hsplit
      rw [List.length_append] at hlength
      have hlast := hd.last
      have hsum := hd.bytes
      rw [hsplit, List.map_append, List.sum_append] at hsum
      have hlimit := hd.limit
      have hremoved := sum_byteLength_nonneg removed
      have hevicted := hd.evicted
      have hsent := hd.sent
      -- The mark stands at the last frame that went, or where it stood.
      have hmark : (evict ack d.frames d.bufferedBytes d.evictedThrough).2.2 =
          max d.evictedThrough ack := by
        rw [hthrough]
        have hlow : d.evictedThrough + removed.length ≤
            max d.evictedThrough ack := by
          rcases List.eq_nil_or_concat' removed with rfl | ⟨l, f, rfl⟩
          · simp
          · have hf := hgone f (by simp)
            have hnum := hcontiguous.1.lastNumber_eq
            rw [lastNumber, List.getLast?_concat, Option.map_some,
              Option.getD_some] at hnum
            omega
        cases hrest : (evict ack d.frames d.bufferedBytes d.evictedThrough).1 with
        | nil =>
            rw [hrest, List.length_nil] at hlength
            omega
        | cons g rest =>
            have hg := hstay g (by rw [hrest]; exact List.mem_cons_self)
            have hnum := hcontiguous.2
            rw [hrest] at hnum
            have := hnum.1
            omega
      refine ⟨by omega, by omega, ⟨?_, ?_, ?_, ?_, ?_, hd.sent⟩, rfl, rfl,
        hmark, ⟨removed, hsplit, hthrough⟩, rfl⟩
      · rw [hthrough]
        exact hcontiguous.2
      · simp only [hthrough]
        omega
      · simp only [hbytes]
        omega
      · simp only [hbytes]
        omega
      · simp only [hmark]
        omega

/-- What a read that is not refused answers, and what it leaves. -/
theorem after_cases {cursor : Int} {limit : Nat} {d d' : Direction}
    {batch : List RelayFrame} (hd : Intact d)
    (h : d.after cursor limit = .ok (batch, d')) :
    0 ≤ cursor ∧ d.evictedThrough ≤ cursor ∧ cursor ≤ d.lastSeq ∧
      batch = (above RelayFrame.seq cursor d.frames).take limit ∧
      NumberedFrom RelayFrame.seq cursor batch ∧ Intact d' ∧
      d' = { d with sentHighWater := d'.sentHighWater } ∧
      d.sentHighWater ≤ d'.sentHighWater ∧
      (batch ≠ [] → lastNumber RelayFrame.seq cursor batch ≤ d'.sentHighWater)
      := by
  rw [Direction.after] at h
  split at h
  · cases h
  · next hcursor =>
      split at h
      · cases h
      · next hexpired =>
          have hnum : NumberedFrom RelayFrame.seq cursor (d.batch cursor limit) :=
            (hd.contiguous.above (by omega) (by rw [hd.last]; omega)).1.take limit
          split at h
          · next hlast =>
              cases h
              refine ⟨by omega, by omega, by omega, rfl, hnum, hd, rfl,
                Int.le_refl _, fun hne => ?_⟩
              exact absurd (List.getLast?_eq_none_iff.mp hlast) hne
          · next last hlast =>
              cases h
              have hmem : last ∈ d.frames :=
                List.mem_of_mem_filter
                  (List.mem_of_mem_take (List.mem_of_getLast? hlast))
              have hbound := (hd.contiguous.bounds hmem).2
              rw [hd.last] at hbound
              have hevicted := hd.evicted
              have hsent := hd.sent
              refine ⟨by omega, by omega, by omega, rfl, hnum, ?_, rfl, ?_,
                fun _ => ?_⟩
              · refine ⟨hd.contiguous, hd.last, hd.bytes, hd.limit, ?_, ?_⟩
                · show d.evictedThrough ≤ max d.sentHighWater last.seq
                  omega
                · show max d.sentHighWater last.seq ≤ d.lastSeq
                  omega
              · show d.sentHighWater ≤ max d.sentHighWater last.seq
                omega
              · rw [lastNumber, hlast]
                show last.seq ≤ max d.sentHighWater last.seq
                omega

/-! ## A look at the queue -/

/-- A direction after acknowledgements and reads. -/
structure Onward (acked : List Int) (d d' : Direction) : Prop where
  intact : Intact d'
  last : d'.lastSeq = d.lastSeq
  sent : d.sentHighWater ≤ d'.sentHighWater
  removed : ∃ removed, d.frames = removed ++ d'.frames ∧
    d'.evictedThrough = d.evictedThrough + removed.length
  digests : ∀ seq, (∀ a ∈ acked, a < seq) →
    d'.recentDigests.lookup seq = d.recentDigests.lookup seq

theorem Onward.refl {d : Direction} (hd : Intact d) : Onward [] d d :=
  ⟨hd, rfl, Int.le_refl _, ⟨[], rfl, by simp⟩, fun _ _ => rfl⟩

theorem lookup_filter_key {p : Int → Bool} {seq : Int} (hp : p seq = true)
    (entries : List (Int × Bytes)) :
    (entries.filter fun entry => p entry.1).lookup seq = entries.lookup seq := by
  induction entries with
  | nil => rfl
  | cons entry rest ih =>
      obtain ⟨k, v⟩ := entry
      by_cases hk : seq = k
      · subst hk
        simp [hp]
      · have hne : (seq == k) = false := by simpa using hk
        by_cases hpk : p k = true
        · simp [hpk, List.lookup_cons, hne, ih]
        · simp [hpk, List.lookup_cons, hne, ih]

theorem onward_acknowledge {ack : Int} {d d' : Direction} (hd : Intact d)
    (h : d.acknowledge ack = .ok d') : Onward [ack] d d' := by
  obtain ⟨hack, -, hd', hlast, hsent, -, hremoved, hdigests⟩ :=
    acknowledge_cases hd h
  refine ⟨hd', hlast, Int.le_of_eq hsent.symm, hremoved, fun seq hseq => ?_⟩
  have hafter : ack < seq := hseq ack (List.mem_singleton_self ack)
  rw [hdigests]
  exact lookup_filter_key (p := fun k => decide ¬ k < max 0 (ack - 32))
    (decide_eq_true (by omega)) d.recentDigests

theorem onward_after {cursor : Int} {limit : Nat} {d d' : Direction}
    {batch : List RelayFrame} (hd : Intact d)
    (h : d.after cursor limit = .ok (batch, d')) : Onward [] d d' := by
  obtain ⟨-, -, -, -, -, hd', hsame, hsent, -⟩ := after_cases hd h
  refine ⟨hd', ?_, hsent, ⟨[], ?_, ?_⟩, fun seq _ => ?_⟩
  · rw [hsame]
  · rw [hsame]
    rfl
  · rw [hsame]
    simp
  · rw [hsame]

theorem Onward.trans {acked acked' : List Int} {d d' d'' : Direction}
    (h : Onward acked d d') (h' : Onward acked' d' d'') :
    Onward (acked ++ acked') d d'' := by
  obtain ⟨r, hr, hev⟩ := h.removed
  obtain ⟨r', hr', hev'⟩ := h'.removed
  refine ⟨h'.intact, h'.last.trans h.last, h.sent.trans h'.sent,
    ⟨r ++ r', ?_, ?_⟩, fun seq hseq => ?_⟩
  · rw [hr, hr', List.append_assoc]
  · rw [hev', hev, List.length_append]
    omega
  · rw [h'.digests seq fun a ha => hseq a (List.mem_append_right _ ha),
      h.digests seq fun a ha => hseq a (List.mem_append_left _ ha)]

/-- The acknowledgements a look makes. -/
def taken (ack : Option Int) (d : Direction) : List Int :=
  ack.toList.filter fun a => (d.acknowledge a).toOption.isSome

/-- What a look leaves, and what it means when it answers with a batch. -/
theorem look_cases {d : Direction} (hd : Intact d) (ack : Option Int)
    (cursor : Int) (limit : Nat) :
    Onward (taken ack d) d (d.look ack cursor limit).1 ∧
      ∀ batch, (d.look ack cursor limit).2 = .ok batch →
        let d' := (d.look ack cursor limit).1
        d'.evictedThrough ≤ cursor ∧ cursor ≤ d'.lastSeq ∧
          batch = (above RelayFrame.seq cursor d'.frames).take limit ∧
          NumberedFrom RelayFrame.seq cursor batch ∧
          (batch ≠ [] →
            lastNumber RelayFrame.seq cursor batch ≤ d'.sentHighWater) := by
  -- The read, at the direction the acknowledgement leaves.
  have hread : ∀ e, Onward (taken ack d) d e →
      ack.elim (.ok d) d.acknowledge = .ok e →
      Onward (taken ack d) d (d.look ack cursor limit).1 ∧
      ∀ batch, (d.look ack cursor limit).2 = .ok batch →
        let d' := (d.look ack cursor limit).1
        d'.evictedThrough ≤ cursor ∧ cursor ≤ d'.lastSeq ∧
          batch = (above RelayFrame.seq cursor d'.frames).take limit ∧
          NumberedFrom RelayFrame.seq cursor batch ∧
          (batch ≠ [] →
            lastNumber RelayFrame.seq cursor batch ≤ d'.sentHighWater) := by
    intro e he hack
    rw [Direction.look, hack]
    simp only []
    cases hafter : e.after cursor limit with
    | error err =>
        simp only []
        exact ⟨he, nofun⟩
    | ok res =>
        obtain ⟨result, d'⟩ := res
        simp only []
        have honward := he.trans (onward_after he.intact hafter)
        rw [List.append_nil] at honward
        refine ⟨honward, fun batch hbatch => ?_⟩
        cases hbatch
        obtain ⟨-, hevicted, hlast, hresult, hnum, -, hsame, -, hreach⟩ :=
          after_cases he.intact hafter
        rw [hsame] at hreach ⊢
        exact ⟨hevicted, hlast, hresult, hnum, hreach⟩
  cases ack with
  | none => exact hread d (Onward.refl hd) rfl
  | some a =>
      cases hack : d.acknowledge a with
      | ok e =>
          have htaken : taken (some a) d = [a] := by
            simp [taken, hack, Except.toOption]
          exact hread e (htaken ▸ onward_acknowledge hd hack) hack
      | error err =>
          have htaken : taken (some a) d = [] := by
            simp [taken, hack, Except.toOption]
          have hlook : d.look (some a) cursor limit = (d, .error err) := by
            rw [Direction.look, Option.elim_some, hack]
          rw [hlook, htaken]
          exact ⟨Onward.refl hd, nofun⟩

/-! ## The agent's poll -/

/-- The agent has handed on the data frames up to its acknowledgement. -/
structure PollSound (accepted : List RelayFrame) (sent : Int) (p : InputPoll) :
    Prop where
  order : 0 ≤ p.ack ∧ p.ack ≤ p.after
  reading : p.ended = none → p.ack = p.after
  reached : p.after = 0 ∨ p.after ≤ sent
  inSequence : p.ended ≠ some .sequenceMismatch
  handed : p.input.map some =
    (between RelayFrame.seq 0 p.ack accepted).map (decodeBase64 ·.dataB64)

/-- What taking a batch that goes on from the poll does to it. -/
structure Took (s s' : InputPoll) (batch : List RelayFrame) : Prop where
  handed : ∃ k ≤ batch.length, s'.ack = s.ack + k ∧
    s'.input.map some =
      s.input.map some ++ (batch.take k).map (decodeBase64 ·.dataB64)
  order : s'.ack ≤ s'.after
  reached : s'.after ≤ s.after + batch.length
  reading : s'.ended = none → s'.ack = s'.after
  inSequence : s'.ended ≠ some .sequenceMismatch

theorem takeFrame_cases {s : InputPoll} {frame : RelayFrame}
    (hseq : frame.seq = s.after + 1) :
    (∃ e, e ≠ .sequenceMismatch ∧
      s.takeFrame frame = { s with after := frame.seq, ended := some e }) ∨
    ∃ decoded, decodeBase64 frame.dataB64 = some decoded ∧
      s.takeFrame frame = { s with
        after := frame.seq, ack := frame.seq, input := s.input ++ [decoded] } := by
  rw [InputPoll.takeFrame, if_neg (not_not.mpr hseq)]
  split
  · exact .inl ⟨.undecodable, (by intro h; cases h), rfl⟩
  · next decoded hdecode =>
      split
      · exact .inl ⟨.control, (by intro h; cases h), rfl⟩
      · exact .inr ⟨decoded, hdecode, rfl⟩

theorem took_takeFrames {s : InputPoll} {batch : List RelayFrame}
    (hopen : s.ended = none) (hack : s.ack = s.after)
    (h : NumberedFrom RelayFrame.seq s.after batch) :
    Took s (s.takeFrames batch) batch := by
  induction batch generalizing s with
  | nil =>
      refine ⟨⟨0, Nat.le_refl 0, by simp [InputPoll.takeFrames],
        by simp [InputPoll.takeFrames]⟩, Int.le_of_eq hack, ?_, fun _ => hack, ?_⟩
      · exact Int.le_of_eq (Int.add_zero s.after).symm
      · rw [InputPoll.takeFrames, hopen]
        exact nofun
  | cons frame rest ih =>
      obtain ⟨hseq, hrest⟩ := h
      rw [InputPoll.takeFrames]
      rcases takeFrame_cases hseq with ⟨e, he, htake⟩ | ⟨decoded, hdecode, htake⟩
      · rw [htake, if_pos (by exact rfl)]
        refine ⟨⟨0, Nat.zero_le _, by simp, by simp⟩, ?_, ?_, nofun, ?_⟩
        · show s.ack ≤ frame.seq
          omega
        · show frame.seq ≤ s.after + (frame :: rest).length
          rw [List.length_cons]
          omega
        · exact fun h => he (Option.some.inj h)
      · rw [htake, if_neg (by simp [hopen])]
        rw [← hseq] at hrest
        have hrec := ih (s := { s with
          after := frame.seq, ack := frame.seq, input := s.input ++ [decoded] })
          hopen rfl hrest
        obtain ⟨k, hk, hacked, hinput⟩ := hrec.handed
        have hreached := hrec.reached
        refine ⟨⟨k + 1, Nat.succ_le_succ hk, ?_, ?_⟩, hrec.order, ?_,
          hrec.reading, hrec.inSequence⟩
        · rw [hacked]
          simp only []
          omega
        · rw [hinput, List.take_succ_cons, List.map_cons, hdecode]
          simp
        · rw [List.length_cons]
          simp only [] at hreached
          omega

/-- An answer to a poll from the agent's cursor. -/
theorem PollSound.answered {accepted : List RelayFrame} {sent n : Int}
    {p : InputPoll} (hp : PollSound accepted sent p)
    (hnum : NumberedFrom RelayFrame.seq n accepted) (hopen : p.ended = none)
    {answer : Except RelayError (List RelayFrame)}
    (hbatch : ∀ batch, answer = .ok batch →
      NumberedFrom RelayFrame.seq p.after (above RelayFrame.seq p.after accepted) ∧
      (∃ limit, batch = (above RelayFrame.seq p.after accepted).take limit) ∧
      (batch ≠ [] → lastNumber RelayFrame.seq p.after batch ≤ sent)) :
    PollSound accepted sent (p.answered answer) := by
  cases answer with
  | error e =>
      exact ⟨hp.order, nofun, hp.reached, nofun, hp.handed⟩
  | ok batch =>
      have hack := hp.reading hopen
      obtain ⟨hfrom, ⟨limit, rfl⟩, hreach⟩ := hbatch batch rfl
      have hbatchFrom := hfrom.take limit
      have htook := took_takeFrames hopen hack hbatchFrom
      obtain ⟨k, hk, hacked, hinput⟩ := htook.handed
      have horder := hp.order
      have hlimit : k ≤ limit ∧
          k ≤ (above RelayFrame.seq p.after accepted).length := by
        rw [List.length_take] at hk
        omega
      refine ⟨⟨?_, htook.order⟩, htook.reading, ?_, htook.inSequence, ?_⟩
      · rw [InputPoll.answered, hacked]
        omega
      · -- The batch reaches no further than what was sent.
        have hreached := htook.reached
        rw [← hbatchFrom.lastNumber_eq] at hreached
        rcases Classical.em
            ((above RelayFrame.seq p.after accepted).take limit = []) with hnil | hne
        · rw [hnil, InputPoll.answered]
          exact hp.reached
        · exact .inr (hreached.trans (hreach hne))
      · rw [List.take_take, Nat.min_eq_left hlimit.1,
          take_above_eq hfrom k hlimit.2] at hinput
        rw [InputPoll.answered, hinput, hp.handed, ← List.map_append, hacked,
          ← hack]
        rw [hnum.between_append horder.1 (by omega)]

/-! ## The traffic -/

/-- What holds of the traffic after every event. -/
structure Sound (sha256 : Bytes → Bytes) (startSeq : Int) (t : ShellTraffic) :
    Prop where
  intact : Intact t.direction
  numbered : NumberedFrom RelayFrame.seq startSeq t.accepted
  queued : ∃ gone, t.accepted = gone ++ t.direction.frames ∧
    t.direction.evictedThrough = startSeq + gone.length
  digests : ∀ f ∈ t.accepted, (∀ a ∈ t.acked, a < f.seq) →
    t.direction.recentDigests.lookup f.seq = some (f.digest sha256)
  cursor : t.cursor = t.began ∨
    t.began ≤ t.cursor ∧ t.cursor ≤ t.direction.sentHighWater
  received : t.received = between RelayFrame.seq t.began t.cursor t.accepted
  poll : PollSound t.accepted t.direction.sentHighWater t.poll

theorem sound_fresh (sha256 : Bytes → Bytes) (startSeq : Int)
    (maxBytes maxFrames : Nat) (began : Int) :
    Sound sha256 startSeq (.fresh startSeq maxBytes maxFrames began) where
  intact := intact_new startSeq maxBytes maxFrames
  numbered := trivial
  queued := ⟨[], rfl, (Int.add_zero startSeq).symm⟩
  digests := nofun
  cursor := .inl rfl
  received := rfl
  poll := ⟨⟨Int.le_refl 0, Int.le_refl 0⟩, fun _ => rfl, .inl rfl, nofun, rfl⟩

variable {sha256 : Bytes → Bytes} {startSeq : Int} {t : ShellTraffic}

/-- The last number is the one of the last accepted frame. -/
theorem Sound.lastSeq (h : Sound sha256 startSeq t) :
    startSeq + t.accepted.length = t.direction.lastSeq := by
  obtain ⟨gone, hgone, hmark⟩ := h.queued
  have hlast := h.intact.last
  rw [hgone, List.length_append]
  omega

/-- A new frame is past every cursor a reader can have come to. -/
theorem between_concat {frame : RelayFrame} {c b : Int}
    (hb : b = c ∨ b < frame.seq) (l : List RelayFrame) :
    between RelayFrame.seq c b (l ++ [frame]) = between RelayFrame.seq c b l := by
  have hnone : between RelayFrame.seq c b [frame] = [] := by
    refine List.filter_eq_nil_iff.mpr fun f hf => ?_
    rw [List.mem_singleton.mp hf, decide_eq_true_eq]
    omega
  rw [between, List.filter_append, ← between, ← between, hnone, List.append_nil]

theorem Sound.pushed (h : Sound sha256 startSeq t) (frame : RelayFrame) :
    Sound sha256 startSeq (t.pushed sha256 frame) := by
  rw [ShellTraffic.pushed, SessionRelay.append]
  by_cases hclosed : t.relay.closed = true
  · rw [if_pos hclosed]
    exact h
  rw [if_neg hclosed]
  cases happend : t.relay.direction.append sha256 frame with
  | error e => exact h
  | ok res =>
      obtain ⟨d, new⟩ := res
      have hd := h.intact.append happend
      rcases append_cases happend with ⟨rfl, rfl⟩ | ⟨rfl, hseq, -, rfl⟩
      · exact h
      · have hlast := h.lastSeq
        have hsent := h.intact.sent
        have hnext : frame.seq = t.direction.lastSeq + 1 := hseq
        obtain ⟨gone, hgone, hmark⟩ := h.queued
        refine ⟨hd, ?_, ⟨gone, ?_, hmark⟩, ?_, h.cursor, ?_, ?_⟩
        · refine numberedFrom_append.mpr ⟨h.numbered, ?_, trivial⟩
          omega
        · show t.accepted ++ [frame] = gone ++ (t.direction.frames ++ [frame])
          rw [hgone, List.append_assoc]
        · intro f hf hacked
          show List.lookup f.seq ((frame.seq, frame.digest sha256) ::
            t.direction.recentDigests.filter fun e => e.1 ≠ frame.seq) = _
          rw [List.lookup_cons]
          rcases List.mem_append.mp hf with hold | hnew
          · -- The number of an older frame is below the new one.
            have hbound := (h.numbered.bounds hold).2
            have hne : f.seq ≠ frame.seq := by omega
            have hother : (f.seq == frame.seq) = false := by simpa using hne
            simp only [hother]
            rw [lookup_filter_key (p := fun k => decide (k ≠ frame.seq))
              (decide_eq_true hne)]
            exact h.digests f hold hacked
          · rw [List.mem_singleton.mp hnew]
            simp
        · show t.received =
            between RelayFrame.seq t.began t.cursor (t.accepted ++ [frame])
          have hcursor := h.cursor
          rw [between_concat (by omega)]
          exact h.received
        · have hp := h.poll
          have hreached := hp.reached
          have horder := hp.order
          refine ⟨hp.order, hp.reading, hp.reached, hp.inSequence, ?_⟩
          show _ = (between RelayFrame.seq 0 t.poll.ack
            (t.accepted ++ [frame])).map _
          rw [between_concat (by omega)]
          exact hp.handed

/-- Frames that are gone from the queue are not after a cursor it serves. -/
theorem Sound.above_frames (h : Sound sha256 startSeq t) {cursor : Int}
    (hcursor : t.direction.evictedThrough ≤ cursor) :
    above RelayFrame.seq cursor t.direction.frames =
      above RelayFrame.seq cursor t.accepted := by
  obtain ⟨gone, hgone, hmark⟩ := h.queued
  have hnum := h.numbered
  rw [hgone, numberedFrom_append] at hnum
  rw [hgone, above_append_of_le]
  intro f hf
  have := (hnum.1.bounds hf).2
  omega

/-- What is accepted and past the cursor is numbered from the cursor. -/
theorem Sound.above_numbered (h : Sound sha256 startSeq t) {cursor : Int}
    (hmark : t.direction.evictedThrough ≤ cursor)
    (hlast : cursor ≤ t.direction.lastSeq) :
    NumberedFrom RelayFrame.seq cursor
      (above RelayFrame.seq cursor t.accepted) := by
  rw [← h.above_frames hmark]
  have hlength := h.intact.last
  exact (h.intact.contiguous.above hmark (by omega)).1

/-- Acknowledgements and reads, whoever makes them. -/
theorem Sound.looked (h : Sound sha256 startSeq t) (ack : Option Int)
    (cursor : Int) (limit : Nat) :
    Sound sha256 startSeq (t.looked ack cursor limit) := by
  obtain ⟨honward, -⟩ :=
    look_cases h.intact ack cursor limit
  obtain ⟨gone, hgone, hmark⟩ := h.queued
  obtain ⟨removed, hremoved, hevicted⟩ := honward.removed
  have hsent := honward.sent
  refine ⟨honward.intact, h.numbered, ⟨gone ++ removed, ?_, ?_⟩, ?_, ?_,
    h.received, ?_⟩
  · show t.accepted =
      (gone ++ removed) ++ (t.direction.look ack cursor limit).1.frames
    rw [hgone, hremoved, List.append_assoc]
  · show (t.direction.look ack cursor limit).1.evictedThrough = _
    rw [hevicted, hmark, List.length_append]
    omega
  · intro f hf hacked
    show (t.direction.look ack cursor limit).1.recentDigests.lookup f.seq = _
    rw [honward.digests f.seq fun a ha => hacked a (List.mem_append_left _ ha)]
    exact h.digests f hf fun a ha => hacked a (List.mem_append_right _ ha)
  · rcases h.cursor with hbegan | ⟨hle, hreach⟩
    · exact .inl hbegan
    · exact .inr ⟨hle, hreach.trans hsent⟩
  · have hp := h.poll
    refine ⟨hp.order, hp.reading, ?_, hp.inSequence, hp.handed⟩
    rcases hp.reached with hzero | hreach
    · exact .inl hzero
    · exact .inr (hreach.trans hsent)

/-- What a batch is that a look answers with. -/
theorem Sound.batch (h : Sound sha256 startSeq t) {ack : Option Int}
    {cursor : Int} {limit : Nat} {batch : List RelayFrame}
    (hbatch : t.answer ack cursor limit = .ok batch) :
    NumberedFrom RelayFrame.seq cursor (above RelayFrame.seq cursor t.accepted) ∧
      batch = (above RelayFrame.seq cursor t.accepted).take limit ∧
      (batch ≠ [] → lastNumber RelayFrame.seq cursor batch ≤
        (t.looked ack cursor limit).direction.sentHighWater) := by
  obtain ⟨-, hanswer⟩ :=
    look_cases h.intact ack cursor limit
  obtain ⟨hmark, hlast, htake, -, hreach⟩ := hanswer batch hbatch
  have hlooked := h.looked ack cursor limit
  refine ⟨hlooked.above_numbered hmark hlast, ?_, hreach⟩
  rw [htake]
  exact congrArg (List.take limit) (hlooked.above_frames hmark)

theorem Sound.step (h : Sound sha256 startSeq t) (event : ShellEvent) :
    Sound sha256 startSeq (t.step sha256 event) := by
  cases event with
  | push frame => exact h.pushed frame
  | look ack cursor limit => exact h.looked ack cursor limit
  | close => exact ⟨h.intact, h.numbered, h.queued, h.digests, h.cursor,
      h.received, h.poll⟩
  | read ack limit =>
      rw [ShellTraffic.step]
      have hlooked := h.looked ack t.cursor limit
      cases hanswer : t.answer ack t.cursor limit with
      | error e => exact hlooked
      | ok batch =>
          obtain ⟨hfrom, htake, hreach⟩ := h.batch hanswer
          have hlast := (hfrom.take limit).lastNumber_eq
          rw [← htake] at hlast
          refine ⟨hlooked.intact, hlooked.numbered, hlooked.queued,
            hlooked.digests, ?_, ?_, hlooked.poll⟩
          · show lastNumber RelayFrame.seq t.cursor batch = t.began ∨
              t.began ≤ lastNumber RelayFrame.seq t.cursor batch ∧ _
            have hbegan : t.began ≤ t.cursor := by
              rcases h.cursor with heq | hle
              · exact Int.le_of_eq heq.symm
              · exact hle.1
            rcases Classical.em (batch = []) with hnil | hne
            · rw [hnil]
              exact hlooked.cursor
            · exact .inr ⟨by omega, hreach hne⟩
          · show t.received ++ batch = between RelayFrame.seq t.began
              (lastNumber RelayFrame.seq t.cursor batch) t.accepted
            have hbegan : t.began ≤ t.cursor := by
              rcases h.cursor with heq | hle
              · exact Int.le_of_eq heq.symm
              · exact hle.1
            have hbatch : batch = between RelayFrame.seq t.cursor
                (lastNumber RelayFrame.seq t.cursor batch) t.accepted := by
              rw [htake]
              exact take_above_eq_lastNumber hfrom limit
            rw [h.received]
            conv_lhs => rw [hbatch]
            exact h.numbered.between_append hbegan (by omega)
  | poll woken limit =>
      rw [ShellTraffic.step]
      split
      · exact h
      · next hended =>
          have hopen : t.poll.ended = none := by
            rwa [Option.not_isSome_iff_eq_none] at hended
          have hlooked := h.looked (t.pollAck woken) t.poll.after limit
          refine ⟨hlooked.intact, hlooked.numbered, hlooked.queued,
            hlooked.digests, hlooked.cursor, hlooked.received, ?_⟩
          refine hlooked.poll.answered h.numbered hopen fun batch hanswer => ?_
          obtain ⟨hfrom, htake, hreach⟩ := h.batch hanswer
          exact ⟨hfrom, ⟨limit, htake⟩, hreach⟩

theorem Sound.run (h : Sound sha256 startSeq t) (events : List ShellEvent) :
    Sound sha256 startSeq (t.run sha256 events) := by
  induction events generalizing t with
  | nil => exact h
  | cons event events ih => exact ih (h.step event)

/-! ## What the relay promises -/

/-- The mark of what is gone once an acknowledgement is taken. -/
def markAfter (d : Direction) (ack : Option Int) : Int :=
  ack.elim d.evictedThrough (max d.evictedThrough)

/-- A read answers with the accepted frames past its cursor, or says that some
of them are gone, or that there is no such cursor. -/
theorem Sound.answer_eq (h : Sound sha256 startSeq t) {ack : Option Int}
    (hack : ∀ a, ack = some a → 0 ≤ a ∧ a ≤ t.direction.sentHighWater)
    (cursor : Int) (limit : Nat) :
    t.answer ack cursor limit =
      if cursor < 0 ∨ t.direction.lastSeq < cursor then .error .sequenceConflict
      else if cursor < markAfter t.direction ack then .error .cursorExpired
      else .ok ((above RelayFrame.seq cursor t.accepted).take limit) := by
  have hread : ∀ e, ack.elim (.ok t.direction) t.direction.acknowledge = .ok e →
      e.lastSeq = t.direction.lastSeq →
      e.evictedThrough = markAfter t.direction ack →
      t.answer ack cursor limit =
        if cursor < 0 ∨ t.direction.lastSeq < cursor then
          .error .sequenceConflict
        else if cursor < markAfter t.direction ack then .error .cursorExpired
        else .ok ((above RelayFrame.seq cursor t.accepted).take limit) := by
    intro e he hlast hmark
    have hanswer : t.answer ack cursor limit =
        (e.after cursor limit).map Prod.fst := by
      rw [ShellTraffic.answer, Direction.look, he]
      simp only []
      cases e.after cursor limit with
      | error _ => rfl
      | ok res => rfl
    have hbatch := fun batch (hok : t.answer ack cursor limit = .ok batch) =>
      h.batch hok
    rw [hanswer] at hbatch ⊢
    rw [Direction.after, hlast, hmark] at hbatch ⊢
    split
    · rfl
    · split
      · rfl
      · next hcursor hexpired =>
          rw [if_neg hcursor, if_neg hexpired] at hbatch
          split at hbatch
          · exact congrArg Except.ok (hbatch _ rfl).2.1
          · exact congrArg Except.ok (hbatch _ rfl).2.1
  cases ack with
  | none => exact hread t.direction rfl rfl rfl
  | some a =>
      obtain ⟨hpos, hle⟩ := hack a rfl
      cases hacked : t.direction.acknowledge a with
      | error e =>
          rw [Direction.acknowledge, if_neg (by omega)] at hacked
          cases hacked
      | ok e =>
          obtain ⟨-, -, -, hlast, -, hmark, -⟩ := acknowledge_cases h.intact hacked
          exact hread e hacked hlast hmark

/-- A retry of an accepted frame that no acknowledgement has covered. -/
theorem Sound.retry (h : Sound sha256 startSeq t) {f : RelayFrame}
    (hf : f ∈ t.accepted) (hacked : ∀ a ∈ t.acked, a < f.seq) :
    t.direction.append sha256 f = .ok (t.direction, false) := by
  have hbound := (h.numbered.bounds hf).2
  have hlast := h.lastSeq
  rw [Direction.append, if_pos (by omega), if_pos (h.digests f hf hacked)]

/-- What a direction promises of the traffic through it. -/
structure StreamKept (sha256 : Bytes → Bytes) (startSeq : Int)
    (t : ShellTraffic) : Prop where
  /-- The counters agree with the queue. -/
  intact : Intact t.direction
  /-- The queue is what was accepted past the eviction mark. -/
  queue : t.direction.frames =
    above RelayFrame.seq t.direction.evictedThrough t.accepted
  /-- Accepted frames are numbered without a gap or a repeat. -/
  numbered : NumberedFrom RelayFrame.seq startSeq t.accepted ∧
    startSeq + t.accepted.length = t.direction.lastSeq
  /-- The reader has every accepted frame from where it began to its cursor. -/
  received : t.received = between RelayFrame.seq t.began t.cursor t.accepted
  /-- It stands where it began or at a frame that was sent. -/
  cursor : t.cursor = t.began ∨
    t.began ≤ t.cursor ∧ t.cursor ≤ t.direction.sentHighWater
  /-- Its next read goes on from there, or it is told of the gap. -/
  resumes : ∀ ack limit,
    (∀ a, ack = some a → 0 ≤ a ∧ a ≤ t.direction.sentHighWater) →
    t.answer ack t.cursor limit =
      if t.cursor < 0 ∨ t.direction.lastSeq < t.cursor then
        .error .sequenceConflict
      else if t.cursor < markAfter t.direction ack then .error .cursorExpired
      else .ok ((above RelayFrame.seq t.cursor t.accepted).take limit)
  /-- The agent has handed on the accepted frames up to its acknowledgement,
  and no batch it is given is out of sequence. -/
  agent : PollSound t.accepted t.direction.sentHighWater t.poll
  /-- A retry of a frame that is not acknowledged changes nothing. -/
  retried : ∀ f ∈ t.accepted, (∀ a ∈ t.acked, a < f.seq) →
    t.direction.append sha256 f = .ok (t.direction, false) ∧
      t.pushed sha256 f = t

/-- Every sequence of pushes, acknowledgements, reads and polls on a direction
keeps the stream. -/
theorem shell_stream_kept (sha256 : Bytes → Bytes) (startSeq : Int)
    (maxBytes maxFrames : Nat) (began : Int) (events : List ShellEvent) :
    StreamKept sha256 startSeq ((ShellTraffic.fresh startSeq maxBytes maxFrames
      began).run sha256 events) := by
  have h := (sound_fresh sha256 startSeq maxBytes maxFrames began).run events
  refine ⟨h.intact, ?_, ⟨h.numbered, h.lastSeq⟩, h.received, h.cursor,
    fun ack limit hack => h.answer_eq hack _ limit, h.poll, fun f hf hacked => ?_⟩
  · rw [← h.above_frames (Int.le_refl _)]
    exact (h.intact.contiguous.above_eq_self (Int.le_refl _)).symm
  · have hretry := h.retry hf hacked
    refine ⟨hretry, ?_⟩
    rw [ShellTraffic.pushed, SessionRelay.append]
    by_cases hclosed : (ShellTraffic.run sha256
        (.fresh startSeq maxBytes maxFrames began) events).relay.closed = true
    · rw [if_pos hclosed]
    · rw [if_neg hclosed]
      rw [ShellTraffic.direction] at hretry
      rw [hretry]

end NodeLink.Proofs.ShellStream
