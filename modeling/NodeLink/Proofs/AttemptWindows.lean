import Mathlib
import NodeLink.Server.Maintenance
import NodeLink.Server.RateLimit

/-!
# Which attempts a limiter lets through

The pruned queues answer as the whole log of attempts would. Where a request
is checked and recorded at once, no window holds more than the limit, and
whoever is refused finds that many in the window. Where requests are under way
between their check and their record, as logins are, each adds one at most.
-/

namespace NodeLink.Proofs.AttemptWindows

open Lib Function Server Server.LoginRateLimiter

variable {K T V : Type} [LinearOrder T]
variable {l : LoginRateLimiter T V} {failures : Failures K T}
variable {log : K → List T} {clock now : T} {key : K}

/-! ## The whole log -/

/-- The queues stand for the log at a clock reading. -/
structure Stands (l : LoginRateLimiter T V) (failures : Failures K T)
    (log : K → List T) (clock : T) : Prop where
  agree : ∀ key, AgreeFrom (l.cutoff clock) ((failures key).getD []) (log key)
  ordered : ∀ key, ((failures key).getD []).Pairwise (· ≤ ·)
  past : ∀ key, ∀ t ∈ (failures key).getD [], t ≤ clock
  /-- No key is kept for nothing. -/
  kept : ∀ key, failures key ≠ some []

theorem stands_reset (clock : T) :
    Stands l (reset : Failures K T) (fun _ => []) clock where
  agree _ := AgreeFrom.refl _ _
  ordered _ := List.Pairwise.nil
  past _ _ h := absurd h List.not_mem_nil
  kept _ h := absurd h (by simp [reset])

theorem Stands.mono (hmono : Monotone l.cutoff)
    (h : Stands l failures log clock) (hnow : clock ≤ now) :
    Stands l failures log now where
  agree key := (h.agree key).mono (hmono hnow)
  ordered := h.ordered
  past key t ht := le_trans (h.past key t ht) hnow
  kept := h.kept

variable [DecidableEq K]

/-- What a call does to the log of what was recorded. -/
def logged (log : K → List T) (now : T) : Call K → K → List T
  | .retryAfter _ => log
  | .recordFailure key => update log key (log key ++ [now])
  | .clear key => update log key []
  | .reset => fun _ => []

/-- What the log answers. -/
def logAnswer (l : LoginRateLimiter T V) (log : K → List T) (now : T) :
    Call K → Option (RetryAfter V)
  | .retryAfter key => some (l.answer (after (l.cutoff now) (log key)) now)
  | .recordFailure _ | .clear _ | .reset => none

def logAnswers (l : LoginRateLimiter T V) (log : K → List T) :
    List (T × Call K) → List (Option (RetryAfter V))
  | [] => []
  | (now, c) :: calls =>
      logAnswer l log now c :: logAnswers l (logged log now c) calls

/-- One queue and its log are replaced. -/
theorem Stands.update (h : Stands l failures log now) {q : Option (List T)}
    {m : List T} (hagree : AgreeFrom (l.cutoff now) (q.getD []) m)
    (hordered : (q.getD []).Pairwise (· ≤ ·)) (hpast : ∀ t ∈ q.getD [], t ≤ now)
    (hkept : q ≠ some []) (key : K) :
    Stands l (update failures key q) (update log key m) now where
  agree k := by
    by_cases hk : k = key
    · rw [hk, update_self, update_self]
      exact hagree
    · rw [update_of_ne hk, update_of_ne hk]
      exact h.agree k
  ordered k := by
    by_cases hk : k = key
    · rw [hk, update_self]
      exact hordered
    · rw [update_of_ne hk]
      exact h.ordered k
  past k := by
    by_cases hk : k = key
    · rw [hk, update_self]
      exact hpast
    · rw [update_of_ne hk]
      exact h.past k
  kept k := by
    by_cases hk : k = key
    · rw [hk, update_self]
      exact hkept
    · rw [update_of_ne hk]
      exact h.kept k

theorem prune_spec (h : Stands l failures log now) (key : K) :
    (l.prune failures key now).1 = after (l.cutoff now) (log key) ∧
      ((l.prune failures key now).2 key).getD [] =
        after (l.cutoff now) (log key) ∧
      Stands l (l.prune failures key now).2 log now := by
  have hq : popped (l.cutoff now) ((failures key).getD []) =
      after (l.cutoff now) (log key) := by
    rw [popped_eq_after (h.ordered key)]
    exact h.agree key _ le_rfl
  have hget : ((l.prune failures key now).2 key).getD [] =
      after (l.cutoff now) (log key) := by
    show (update failures key (if (popped _ _).isEmpty then none
      else some (popped _ _)) key).getD [] = _
    rw [update_self, hq]
    cases after (l.cutoff now) (log key) <;> rfl
  refine ⟨hq, hget, ?_⟩
  have hsame : update log key (log key) = log := update_eq_self key log
  rw [← hsame]
  -- What is left in the queue is a part of what stood there.
  have hsub : (popped (l.cutoff now) ((failures key).getD [])).Sublist
      ((failures key).getD []) := List.dropWhile_sublist _
  have hgetD : ∀ q : List T,
      (if q.isEmpty then none else some q : Option (List T)).getD [] = q := by
    intro q
    cases q <;> rfl
  refine h.update ?_ ?_ ?_ ?_ key
  · rw [hgetD]
    exact (h.agree key).popped (h.ordered key)
  · rw [hgetD]
    exact (h.ordered key).sublist hsub
  · rw [hgetD]
    exact fun t ht => h.past key t (hsub.mem ht)
  · split
    · exact nofun
    · next hne =>
      intro heq
      rw [Option.some.inj heq] at hne
      exact hne rfl

theorem retryAfter_fst (h : Stands l failures log now) (key : K) :
    (l.retryAfter failures key now).1 =
      l.answer (after (l.cutoff now) (log key)) now := by
  rw [← (prune_spec h key).1]
  rfl

theorem retryAfter_snd (h : Stands l failures log now) (key : K) :
    Stands l (l.retryAfter failures key now).2 log now :=
  (prune_spec h key).2.2

theorem recordFailure_stands (h : Stands l failures log now) (key : K) :
    Stands l (l.recordFailure failures key now)
      (update log key (log key ++ [now])) now := by
  obtain ⟨-, -, hpruned⟩ := prune_spec h key
  refine hpruned.update ?_ ?_ ?_ (by simp) key
  · exact (hpruned.agree key).append [now]
  · refine List.pairwise_append.mpr
      ⟨hpruned.ordered key, List.pairwise_singleton _ _, fun s hs t ht => ?_⟩
    rw [List.mem_singleton.mp ht]
    exact hpruned.past key s hs
  · intro t ht
    rcases List.mem_append.mp ht with hs | ht
    · exact hpruned.past key t hs
    · exact le_of_eq (List.mem_singleton.mp ht)

theorem clear_stands (h : Stands l failures log now) (key : K) :
    Stands l (clear failures key) (update log key []) now :=
  h.update (q := none) (AgreeFrom.refl _ _) List.Pairwise.nil
    (fun _ ht => absurd ht List.not_mem_nil) nofun key

/-- One call: the answer, and what the queues stand for afterwards. -/
theorem call_spec (h : Stands l failures log now) (c : Call K) :
    (l.call failures now c).1 = logAnswer l log now c ∧
      Stands l (l.call failures now c).2 (logged log now c) now := by
  cases c with
  | retryAfter key =>
      exact ⟨congrArg some (retryAfter_fst h key), retryAfter_snd h key⟩
  | recordFailure key => exact ⟨rfl, recordFailure_stands h key⟩
  | clear key => exact ⟨rfl, clear_stands h key⟩
  | reset => exact ⟨rfl, stands_reset now⟩

theorem answers_of_stands (hmono : Monotone l.cutoff)
    {calls : List (T × Call K)} (h : Stands l failures log clock)
    (hcalls : (clock :: calls.map Prod.fst).Pairwise (· ≤ ·)) :
    l.answers failures calls = logAnswers l log calls := by
  induction calls generalizing failures log clock with
  | nil => rfl
  | cons timed calls ih =>
      obtain ⟨now, c⟩ := timed
      obtain ⟨hclock, hrest⟩ := List.pairwise_cons.mp hcalls
      have hnow : clock ≤ now := hclock now List.mem_cons_self
      obtain ⟨hanswer, hnext⟩ := call_spec (h.mono hmono hnow) c
      show (l.call failures now c).1 ::
        l.answers (l.call failures now c).2 calls = _
      rw [logAnswers, hanswer, ih hnext hrest]

/-- The limiter answers every sequence of calls as the log does. -/
theorem limiter_answers_from_log (l : LoginRateLimiter T V)
    (hmono : Monotone l.cutoff) (calls : List (T × Call K))
    (hclock : (calls.map Prod.fst).Pairwise (· ≤ ·)) :
    l.answers reset calls = logAnswers l (fun _ => []) calls := by
  cases calls with
  | nil => rfl
  | cons timed calls =>
      refine answers_of_stands hmono (stands_reset timed.1) ?_
      refine List.pairwise_cons.mpr ⟨fun t ht => ?_, hclock⟩
      rcases List.mem_cons.mp ht with rfl | ht
      · exact le_rfl
      · exact (List.pairwise_cons.mp hclock).1 t ht

/-- Two failures in a minute, by keys that come and go. -/
def twoInSixty : LoginRateLimiter Int Int where
  maxFailures := 2
  cutoff now := now - 60
  wait first now := max 0 (first + 60 - now)

theorem twoInSixty_monotone : Monotone twoInSixty.cutoff :=
  fun _ _ h => Int.sub_le_sub_right h 60

def sampleCalls : List (Int × Call String) :=
  [(0, .recordFailure "a"), (10, .recordFailure "a"), (10, .recordFailure "b"),
    (50, .retryAfter "a"), (60, .retryAfter "a"), (61, .clear "b"),
    (61, .retryAfter "b")]

theorem limiter_answers_from_log_sample :
    twoInSixty.answers reset sampleCalls =
      logAnswers twoInSixty (fun _ => []) sampleCalls :=
  limiter_answers_from_log twoInSixty twoInSixty_monotone sampleCalls
    (by decide)

example : twoInSixty.answers reset sampleCalls =
    [none, none, none, some (.blocked 10), some .free, none, some .free] := by
  decide

/-! ## Checked and recorded at once -/

/-- The clock readings at which requests of a key passed. -/
def times (key : K) (passed : List (T × K)) : List T :=
  (passed.filter fun r => decide (r.2 = key)).map Prod.fst

omit [LinearOrder T] in
theorem times_concat (passed : List (T × K)) (now : T) (key : K) :
    (fun k => times k (passed ++ [(now, key)])) =
      update (fun k => times k passed) key (times key passed ++ [now]) := by
  funext k
  unfold times
  rw [List.filter_append, List.map_append]
  by_cases hk : key = k
  · rw [← hk, update_self, List.filter_cons_of_pos (by simp)]
    rfl
  · rw [update_of_ne (Ne.symm hk), List.filter_cons_of_neg (by simpa using hk)]
    exact List.append_nil _

omit [LinearOrder T] in
theorem answer_eq_free (l : LoginRateLimiter T V) (now : T) {q : List T} :
    l.answer q now = .free ↔ (q.length : Int) < l.maxFailures := by
  unfold LoginRateLimiter.answer
  split
  · next h => exact ⟨fun _ => h, fun _ => rfl⟩
  · next h => cases q <;> exact ⟨nofun, fun hlt => absurd hlt h⟩

/-- One request: when it passes, and what the queues stand for afterwards. -/
theorem limit_spec (hmono : Monotone l.cutoff) {passed : List (T × K)}
    {ticks : Ticks T} (h : Stands l failures (fun k => times k passed) ticks.asked)
    (hticks : ticks.asked ≤ ticks.recorded) (key : K) :
    ((l.limit failures key ticks).1 = true ↔
        ((after (l.cutoff ticks.asked) (times key passed)).length : Int) <
          l.maxFailures) ∧
      Stands l (l.limit failures key ticks).2
        (fun k => times k
          (if (l.limit failures key ticks).1 then
            passed ++ [(ticks.recorded, key)]
          else passed))
        ticks.recorded := by
  have hanswer := retryAfter_fst h key
  have hnext := retryAfter_snd h key
  unfold limit
  rcases hretry : l.retryAfter failures key ticks.asked with ⟨answer, failures'⟩
  rw [hretry] at hanswer hnext
  rw [← answer_eq_free l ticks.asked, ← show answer = _ from hanswer]
  have hlater := Stands.mono hmono hnext hticks
  cases answer with
  | free =>
      refine ⟨iff_of_true rfl rfl, ?_⟩
      rw [if_pos rfl, times_concat]
      exact recordFailure_stands hlater key
  | blocked _ => exact ⟨iff_of_false nofun nofun, hlater⟩
  | indexError => exact ⟨iff_of_false nofun nofun, hlater⟩

/-- The clock readings of requests, one after the other. -/
def readings (requests : List (Ticks T × K)) : List T :=
  requests.flatMap fun r => [r.1.asked, r.1.recorded]

/-- Requests in order, and the state they leave. -/
theorem limits_spec (hmono : Monotone l.cutoff) {requests : List (Ticks T × K)}
    (hclock : (readings requests).Pairwise (· ≤ ·))
    (hnow : ∀ t ∈ readings requests, t ≤ now) :
    Stands l (l.limits requests).1
        (fun k => times k (l.limits requests).2) now ∧
      ∀ k, Sparse l.cutoff l.maxFailures (times k (l.limits requests).2) := by
  induction requests using List.reverseRecOn generalizing now with
  | nil => exact ⟨stands_reset now, fun _ => sparse_nil _ _⟩
  | append_singleton requests request ih =>
      obtain ⟨ticks, key⟩ := request
      rw [readings, List.flatMap_append, List.flatMap_singleton] at hclock hnow
      obtain ⟨hbefore, hticks, hlast⟩ := List.pairwise_append.mp hclock
      have hle : ticks.asked ≤ ticks.recorded :=
        (List.pairwise_cons.mp hticks).1 _ List.mem_cons_self
      obtain ⟨hstands, hsparse⟩ := @ih ticks.asked hbefore
        fun s hs => hlast s hs _ List.mem_cons_self
      have hrun : l.limits (requests ++ [(ticks, key)]) =
          ((l.limit (l.limits requests).1 key ticks).2,
            if (l.limit (l.limits requests).1 key ticks).1 then
              (l.limits requests).2 ++ [(ticks.recorded, key)]
            else (l.limits requests).2) := by
        unfold limits
        rw [List.foldl_append]
        rfl
      obtain ⟨hpass, hnext⟩ := limit_spec hmono hstands hle key
      rw [hrun]
      refine ⟨hnext.mono hmono (hnow _ ?_), fun k => ?_⟩
      · exact List.mem_append_right _ (List.mem_cons_of_mem _ List.mem_cons_self)
      · show Sparse l.cutoff l.maxFailures (times k (if _ then _ else _))
        split
        · next hok =>
          rw [congrFun (times_concat _ ticks.recorded key) k]
          by_cases hk : k = key
          · rw [hk, update_self]
            -- fewer lie behind the cutoff by the time of the record
            have hfewer := length_after_anti (times key (l.limits requests).2)
              (hmono hle)
            have hasked := hpass.mp hok
            exact sparse_concat.mpr ⟨hsparse key, by omega⟩
          · rw [update_of_ne hk]
            exact hsparse k
        · exact hsparse k

/-- No window holds more requests that passed than the limit, and the next
request passes just where fewer lie behind its cutoff. -/
theorem limit_admits_window (l : LoginRateLimiter T V)
    (hmono : Monotone l.cutoff) (requests : List (Ticks T × K)) (key : K)
    (ticks : Ticks T)
    (hclock : (readings (requests ++ [(ticks, key)])).Pairwise (· ≤ ·)) :
    (∀ u, (window l.cutoff u (times key (l.limits requests).2)).length ≤
        l.maxFailures.toNat) ∧
      ((l.limit (l.limits requests).1 key ticks).1 = true ↔
        ((after (l.cutoff ticks.asked) (times key (l.limits requests).2)).length :
          Int) < l.maxFailures) := by
  rw [readings, List.flatMap_append, List.flatMap_singleton] at hclock
  obtain ⟨hbefore, hticks, hlast⟩ := List.pairwise_append.mp hclock
  have hle : ticks.asked ≤ ticks.recorded :=
    (List.pairwise_cons.mp hticks).1 _ List.mem_cons_self
  obtain ⟨hstands, hsparse⟩ := @limits_spec _ _ _ _ l ticks.asked _ hmono _ hbefore
    fun s hs => hlast s hs _ List.mem_cons_self
  refine ⟨fun u => ?_, (limit_spec hmono hstands hle key).1⟩
  rcases Int.lt_or_le l.maxFailures 0 with hneg | hpos
  · -- Nothing passes a limit below zero.
    have hnone : times key (l.limits requests).2 = [] := by
      rcases hcase : times key (l.limits requests).2 with _ | ⟨t, rest⟩
      · rfl
      · have hlt := hsparse key [] t rest hcase
        rw [after_nil, List.length_nil] at hlt
        omega
    rw [hnone]
    exact Nat.zero_le _
  · have hle := (hsparse key).window_length_le hmono hpos u
    omega

def sampleRequests : List (Ticks Int × String) :=
  [(⟨0, 1⟩, "a"), (⟨10, 10⟩, "a"), (⟨20, 20⟩, "a"), (⟨30, 31⟩, "b"),
    (⟨61, 62⟩, "a"), (⟨65, 65⟩, "a")]

theorem limit_admits_window_sample :
    (∀ u, (window twoInSixty.cutoff u
        (times "a" (twoInSixty.limits sampleRequests).2)).length ≤ 2) ∧
      ((twoInSixty.limit (twoInSixty.limits sampleRequests).1 "a"
          ⟨70, 71⟩).1 = true ↔
        ((after (70 - 60)
          (times "a" (twoInSixty.limits sampleRequests).2)).length :
            Int) < 2) :=
  limit_admits_window twoInSixty twoInSixty_monotone sampleRequests "a" ⟨70, 71⟩
    (by decide)

/-! ## Logins under way -/

/-- The refusals of a key since its last accepted login. -/
def guessed (key : K) (log : List T) : T × LoginStep K → List T
  | (now, .refuse k) => if k = key then log ++ [now] else log
  | (_, .accept k) => if k = key then [] else log
  | (_, .check _) | (_, .abort _) => log

def guesses (key : K) (acts : List (T × LoginStep K)) : List T :=
  acts.foldl (guessed key) []

omit [LinearOrder T] in
theorem guesses_concat (key : K) (acts : List (T × LoginStep K))
    (a : T × LoginStep K) :
    guesses key (acts ++ [a]) = guessed key (guesses key acts) a := by
  unfold guesses
  rw [List.foldl_append]
  rfl

/-- What one step of a login does to the queues. -/
theorem login_stands (hmono : Monotone l.cutoff) {s : LoginState K T}
    {log : K → List T} (h : Stands l s.failures log s.clock)
    {a : T × LoginStep K} (hnow : s.clock ≤ a.1) :
    Stands l (loginNext l s a).failures (fun k => guessed k (log k) a)
        (loginNext l s a).clock ∧ (loginNext l s a).clock = a.1 := by
  obtain ⟨now, step⟩ := a
  have hs := h.mono hmono hnow
  cases step with
  | check key =>
      have hnext := retryAfter_snd hs key
      unfold loginNext
      rcases hretry : l.retryAfter s.failures key now with ⟨answer, failures⟩
      rw [hretry] at hnext
      simp only [hretry]
      cases answer <;> exact ⟨hnext, rfl⟩
  | refuse key =>
      have hlog : (fun k => guessed k (log k) (now, .refuse key)) =
          update log key (log key ++ [now]) := by
        funext k
        by_cases hk : key = k
        · rw [← hk, update_self]
          exact if_pos rfl
        · rw [update_of_ne (Ne.symm hk)]
          exact if_neg hk
      rw [hlog]
      exact ⟨recordFailure_stands hs key, rfl⟩
  | accept key =>
      have hlog : (fun k => guessed k (log k) (now, .accept key)) =
          update log key [] := by
        funext k
        by_cases hk : key = k
        · rw [← hk, update_self]
          exact if_pos rfl
        · rw [update_of_ne (Ne.symm hk)]
          exact if_neg hk
      rw [hlog]
      exact ⟨clear_stands hs key, rfl⟩
  | abort key => exact ⟨hs, rfl⟩

/-- The refusals in the window and the logins under way, for one key. -/
def load (l : LoginRateLimiter T V) (key : K) (s : LoginState K T)
    (log : List T) : Int :=
  (after (l.cutoff s.clock) log).length + s.inFlight.count key

/-- A step adds to the load only where a check passes, and a check passes only
where the window has room. -/
theorem load_step (hmono : Monotone l.cutoff) {s : LoginState K T}
    {log : K → List T} (h : Stands l s.failures log s.clock)
    {a : T × LoginStep K} (henabled : loginEnabled s a = true) (key : K) :
    load l key (loginNext l s a) (guessed key (log key) a) ≤
        load l key s (log key) ∨
      load l key (loginNext l s a) (guessed key (log key) a) <
        l.maxFailures + (loginNext l s a).inFlight.count key := by
  unfold loginEnabled at henabled
  rw [Bool.and_eq_true, decide_eq_true_eq] at henabled
  obtain ⟨hnow, hmem⟩ := henabled
  obtain ⟨-, hclock⟩ := login_stands hmono h hnow
  have hless := length_after_anti (log key) (hmono hnow)
  unfold load
  rw [hclock]
  obtain ⟨now, step⟩ := a
  replace hless : (after (l.cutoff now) (log key)).length ≤
    (after (l.cutoff s.clock) (log key)).length := hless
  cases step with
  | check k =>
      have hanswer := retryAfter_fst (h.mono hmono hnow) k
      unfold loginNext
      rcases hretry : l.retryAfter s.failures k now with ⟨answer, failures⟩
      rw [hretry] at hanswer
      simp only [hretry]
      cases answer with
      | free =>
          by_cases hk : k = key
          · right
            have hroom := (answer_eq_free l _).mp hanswer.symm
            rw [hk] at hroom
            exact Int.add_lt_add_right hroom _
          · left
            rw [List.count_cons_of_ne hk]
            exact Int.add_le_add_right (Int.ofNat_le.mpr hless) _
      | blocked _ | indexError =>
          left
          exact Int.add_le_add_right (Int.ofNat_le.mpr hless) _
  | refuse k =>
      left
      have hin : k ∈ s.inFlight := of_decide_eq_true hmem
      by_cases hk : k = key
      · have hpos : 0 < s.inFlight.count key := by
          rw [← hk]
          exact List.count_pos_iff.mpr hin
        have hcount : (s.inFlight.erase k).count key =
            s.inFlight.count key - 1 := by
          rw [hk]
          exact List.count_erase_self
        have hone : (after (l.cutoff now) [now]).length ≤ 1 :=
          List.length_filter_le _ _
        have hlog : guessed key (log key) (now, .refuse k) = log key ++ [now] :=
          if_pos hk
        rw [hlog, after_append, List.length_append]
        show (((after (l.cutoff now) (log key)).length +
          (after (l.cutoff now) [now]).length : Nat) : Int) +
            ((s.inFlight.erase k).count key : Int) ≤ _
        omega
      · have hlog : guessed key (log key) (now, .refuse k) = log key :=
          if_neg hk
        have hcount : (s.inFlight.erase k).count key = s.inFlight.count key :=
          List.count_erase_of_ne (Ne.symm hk)
        rw [hlog]
        show ((after (l.cutoff now) (log key)).length : Int) +
          ((s.inFlight.erase k).count key : Int) ≤ _
        omega
  | accept k =>
      left
      have hcount : (s.inFlight.erase k).count key ≤ s.inFlight.count key :=
        List.Sublist.count_le key List.erase_sublist
      by_cases hk : k = key
      · have hlog : guessed key (log key) (now, .accept k) = [] := if_pos hk
        rw [hlog, after_nil, List.length_nil]
        show _ + ((s.inFlight.erase k).count key : Int) ≤ _
        omega
      · have hlog : guessed key (log key) (now, .accept k) = log key :=
          if_neg hk
        rw [hlog]
        show ((after (l.cutoff now) (log key)).length : Int) +
          ((s.inFlight.erase k).count key : Int) ≤ _
        omega
  | abort k =>
      left
      have hcount : (s.inFlight.erase k).count key ≤ s.inFlight.count key :=
        List.Sublist.count_le key List.erase_sublist
      show ((after (l.cutoff now) (log key)).length : Int) +
        ((s.inFlight.erase k).count key : Int) ≤ _
      omega

/-- However logins of a key overlap, the refusals in the window since the key's
last accepted login, and the logins under way, are fewer together than the
limit and the most that overlapped. -/
theorem login_guesses_bounded (l : LoginRateLimiter T V)
    (hmono : Monotone l.cutoff) (hlimit : 0 < l.maxFailures) (clock : T)
    (acts : List (T × LoginStep K))
    (hruns : (logins l).runs (.start clock) acts = true) (key : K) (peak : Nat)
    (hpeak : ∀ pre, pre <+: acts →
      ((logins l).run (.start clock) pre).inFlight.count key ≤ peak) :
    load l key ((logins l).run (.start clock) acts) (guesses key acts) <
      l.maxFailures + peak := by
  suffices h : Stands l ((logins l).run (.start clock) acts).failures
      (fun k => guesses k acts) ((logins l).run (.start clock) acts).clock ∧
      load l key ((logins l).run (.start clock) acts) (guesses key acts) <
        l.maxFailures + peak from h.2
  induction acts using List.reverseRecOn with
  | nil =>
      refine ⟨stands_reset clock, ?_⟩
      show ((after (l.cutoff clock) []).length : Int) +
        (([] : List K).count key : Int) < _
      rw [after_nil, List.length_nil, List.count_nil]
      omega
  | append_singleton acts a ih =>
      obtain ⟨hbefore, hlast⟩ := System.runs_append.mp hruns
      obtain ⟨henabled, -⟩ := System.runs_cons.mp hlast
      obtain ⟨hstands, hload⟩ := ih hbefore fun pre hpre =>
        hpeak pre (hpre.trans (List.prefix_append _ _))
      have hrun : (logins l).run (.start clock) (acts ++ [a]) =
          loginNext l ((logins l).run (.start clock) acts) a :=
        System.run_append acts [a]
      have hnow : ((logins l).run (.start clock) acts).clock ≤ a.1 := by
        have hboth := henabled
        change loginEnabled _ _ = true at hboth
        unfold loginEnabled at hboth
        rw [Bool.and_eq_true, decide_eq_true_eq] at hboth
        exact hboth.1
      have hafter := hpeak (acts ++ [a]) List.prefix_rfl
      rw [hrun] at hafter ⊢
      simp only [guesses_concat]
      refine ⟨(login_stands hmono hstands hnow).1, ?_⟩
      rcases load_step hmono hstands henabled key with hle | hlt <;> omega

/-- One refusal, and three logins that are checked before any is refused. -/
def sampleLogins : List (Int × LoginStep String) :=
  [(0, .check "a"), (1, .refuse "a"), (2, .check "a"), (2, .check "a"),
    (3, .check "a"), (4, .refuse "a"), (5, .refuse "a"), (6, .refuse "a"),
    (7, .check "a")]

theorem login_guesses_bounded_sample :
    guesses "a" sampleLogins = [1, 4, 5, 6] ∧
      load twoInSixty "a" ((logins twoInSixty).run (.start 0) sampleLogins)
        (guesses "a" sampleLogins) < 2 + (3 : Nat) := by
  refine ⟨rfl, login_guesses_bounded twoInSixty twoInSixty_monotone
    (by decide) 0 sampleLogins (by decide) "a" 3 fun pre hpre => ?_⟩
  have hall : ∀ pre ∈ sampleLogins.inits,
      ((logins twoInSixty).run (.start 0) pre).inFlight.count "a" ≤ 3 := by
    decide
  exact hall pre ((List.mem_inits _ _).mpr hpre)

end NodeLink.Proofs.AttemptWindows
