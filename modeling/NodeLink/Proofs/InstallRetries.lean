import NodeLink.Agent.InstallRetries
import NodeLink.Proofs.PatchApproval

/-!
# Retries that stay within the order

An outcome is kept under the first KB number of its update, and a retry names
the KB numbers that have failed. Where each of these belongs to one update
alone, the retries attempt what has failed and nothing else, whatever comes of
the attempts. Where two updates share one, an update is attempted that was
never ordered or has already succeeded, or is reported as what became of the
other.

The proof goes from attempt to attempt: every entry is the last outcome of an
update that was ordered.
-/

namespace NodeLink.Proofs.InstallRetries

open Lib Agent.UpdateInstall

/-! ## What a run should keep to -/

/-- The code of the update's last attempt, where there has been one. -/
def lastCode : List Installation → ApplicableUpdate → Option (Option Int)
  | [], _ => none
  | i :: made, u => if u ∈ i.asked then some (i.code u) else lastCode made u

/-- What has succeeded is not attempted again. The latest comes first. -/
def NoneAgain (made : List Installation) : Prop :=
  made.Pairwise fun later earlier => ∀ u ∈ later.asked, u ∈ earlier.asked →
    earlier.code u ≠ some orcSucceeded

/-- The run stays within the order `t`. -/
structure WithinOrder (same : String → String → Bool)
    (updates : List ApplicableUpdate) (t : InstallTargets)
    (run : List Installation × Option InstallResult) : Prop where
  ordered : ∀ i ∈ run.1, ∀ u ∈ i.asked, picks same t u = true
  noneAgain : NoneAgain run.1
  installed : ∀ report, run.2 = some report → ∀ u ∈ updates,
    identifier u ∈ report.installedKBs →
      lastCode run.1 u = some (some orcSucceeded)
  accounted : ∀ report, run.2 = some report → ∀ i ∈ run.1, ∀ u ∈ i.asked,
    identifier u ∈ report.installedKBs ∨ identifier u ∈ report.failedKBs

/-- The first attempt finds the applicable updates, and a later one those that
are left. -/
def Finds (updates : List ApplicableUpdate) (attempts : Nat → Attempt) : Prop :=
  (attempts 1).search = updates ∧ ∀ k, (attempts k).search ⊆ updates

section

variable (toUpper : String → String) (same : String → String → Bool)
  (updates : List ApplicableUpdate) (t : InstallTargets)

/-- A retry can name the update, and the targets it then has. -/
def Retried (u : ApplicableUpdate) : Prop :=
  matchesKBTarget (identifier u) = true ∧
    matchesKBTarget (normalKB toUpper (identifier u)) = true

def retryTargets (u : ApplicableUpdate) : InstallTargets where
  all := false
  kbIDs := [normalKB toUpper (identifier u)]
  updateIDs := []

/-- A retry of an ordered update is of this update alone. -/
def RetriesApart : Prop :=
  ∀ u ∈ updates, picks same t u = true → Retried toUpper u →
    ∀ v ∈ updates, picks same (retryTargets toUpper u) v = true → v = u

/-- No other update goes by an ordered update's identifier, nor, where there
are retries, by the KB number it is retried by. -/
structure Unshared (maxAttempts : Int) : Prop where
  identifiers : ∀ u ∈ updates, picks same t u = true →
    ∀ v ∈ updates, identifier v = identifier u → v = u
  retries : 2 ≤ maxAttempts → RetriesApart toUpper same updates t

end

variable {toUpper toLower : String → String} {same : String → String → Bool}
  {updates : List ApplicableUpdate} {t : InstallTargets}
  {made : List Installation} {outcomes : List UpdateOutcome}

/-! ## The last attempt -/

theorem exists_of_lastCode {u : ApplicableUpdate} {c : Option Int}
    (h : lastCode made u = some c) : ∃ i ∈ made, u ∈ i.asked := by
  induction made with
  | nil => exact nomatch h
  | cons i made ih =>
      rw [lastCode] at h
      split at h
      · next hasked => exact ⟨i, List.mem_cons_self, hasked⟩
      · obtain ⟨j, hj, hasked⟩ := ih h
        exact ⟨j, List.mem_cons_of_mem _ hj, hasked⟩

/-- Where the last attempt has failed, every attempt has. -/
theorem code_ne_of_lastCode (hmade : NoneAgain made) {u : ApplicableUpdate}
    {c : Option Int} (h : lastCode made u = some c)
    (hc : c ≠ some orcSucceeded) {i : Installation} (hi : i ∈ made)
    (hu : u ∈ i.asked) : i.code u ≠ some orcSucceeded := by
  induction made with
  | nil => exact nomatch hi
  | cons j made ih =>
      obtain ⟨hlater, hrest⟩ := List.pairwise_cons.mp hmade
      rw [lastCode] at h
      split at h
      · next hj =>
        rcases List.mem_cons.mp hi with rfl | hi
        · rw [Option.some.inj h]
          exact hc
        · exact hlater i hi u hj hu
      · next hj =>
        rcases List.mem_cons.mp hi with rfl | hi
        · exact absurd hu hj
        · exact ih hrest h hi

/-! ## Entries -/

section Entries

variable {f : Option UpdateOutcome → Int} {o r : UpdateOutcome}

theorem mem_setOutcome (h : o ∈ setOutcome f outcomes r) :
    (r.identifier = o.identifier ∧ r.resultCode = o.resultCode) ∨
      (o ∈ outcomes ∧ r.identifier ≠ o.identifier) := by
  rw [setOutcome] at h
  split at h
  · obtain ⟨p, hp, rfl⟩ := List.mem_map.mp h
    split
    · exact Or.inl ⟨rfl, rfl⟩
    · next hne => exact Or.inr ⟨hp, fun heq => hne heq.symm⟩
  · next hnone =>
    rw [Bool.not_eq_true, Option.isSome_eq_false_iff, Option.isNone_iff_eq_none,
      List.find?_eq_none] at hnone
    rcases List.mem_append.mp h with hold | hnew
    · exact Or.inr ⟨hold, fun heq => hnone o hold (decide_eq_true heq.symm)⟩
    · obtain rfl := List.mem_singleton.mp hnew
      exact Or.inl ⟨rfl, rfl⟩

theorem mem_setOutcome_of_ne (h : o ∈ outcomes)
    (hne : r.identifier ≠ o.identifier) : o ∈ setOutcome f outcomes r := by
  rw [setOutcome]
  split
  · exact List.mem_map.mpr ⟨o, h, if_neg fun heq => hne heq.symm⟩
  · exact List.mem_append_left _ h

theorem exists_setOutcome (f : Option UpdateOutcome → Int)
    (outcomes : List UpdateOutcome) (r : UpdateOutcome) :
    ∃ o ∈ setOutcome f outcomes r,
      o.identifier = r.identifier ∧ o.resultCode = r.resultCode := by
  rw [setOutcome]
  split
  · next hsome =>
    obtain ⟨p, hp⟩ := Option.isSome_iff_exists.mp hsome
    have hid : p.identifier = r.identifier := by
      simpa using List.find?_some hp
    exact ⟨_, List.mem_map.mpr ⟨p, List.mem_of_find?_eq_some hp, if_pos hid⟩,
      rfl, rfl⟩
  · exact ⟨_, List.mem_append_right _ List.mem_cons_self, rfl, rfl⟩

theorem nodup_setOutcome (h : (outcomes.map (·.identifier)).Nodup) :
    ((setOutcome f outcomes r).map (·.identifier)).Nodup := by
  rw [setOutcome]
  split
  · rw [List.map_map]
    refine (congrArg List.Nodup (List.map_congr_left fun p _ => ?_)).mpr h
    simp only [Function.comp_apply]
    split
    · next heq => exact heq.symm
    · rfl
  · next hnone =>
    rw [Bool.not_eq_true, Option.isSome_eq_false_iff, Option.isNone_iff_eq_none,
      List.find?_eq_none] at hnone
    rw [List.map_append, List.nodup_append]
    refine ⟨h, List.nodup_singleton _, ?_⟩
    intro a ha b hb
    obtain ⟨p, hp, rfl⟩ := List.mem_map.mp ha
    obtain rfl := List.mem_singleton.mp hb
    exact fun heq => hnone p hp (decide_eq_true heq)

theorem mem_foldl_setOutcome {results : List UpdateOutcome}
    (h : o ∈ results.foldl (setOutcome f) outcomes) :
    (∃ r ∈ results, r.identifier = o.identifier ∧
        r.resultCode = o.resultCode) ∨
      (o ∈ outcomes ∧ ∀ r ∈ results, r.identifier ≠ o.identifier) := by
  induction results generalizing outcomes with
  | nil => exact Or.inr ⟨h, nofun⟩
  | cons r results ih =>
      rcases ih h with ⟨s, hs, hsame⟩ | ⟨hset, hrest⟩
      · exact Or.inl ⟨s, List.mem_cons_of_mem _ hs, hsame⟩
      · rcases mem_setOutcome hset with hsame | ⟨hold, hne⟩
        · exact Or.inl ⟨r, List.mem_cons_self, hsame⟩
        · exact Or.inr ⟨hold, List.forall_mem_cons.mpr ⟨hne, hrest⟩⟩

theorem exists_foldl_of_mem (results : List UpdateOutcome)
    (h : o ∈ outcomes) :
    ∃ o' ∈ results.foldl (setOutcome f) outcomes,
      o'.identifier = o.identifier := by
  induction results generalizing outcomes o with
  | nil => exact ⟨o, h, rfl⟩
  | cons r results ih =>
      by_cases hid : r.identifier = o.identifier
      · obtain ⟨o', ho', hsame, -⟩ :=
          exists_setOutcome f outcomes r
        obtain ⟨p, hp, hkept⟩ := ih ho'
        exact ⟨p, hp, hkept.trans (hsame.trans hid)⟩
      · exact ih (mem_setOutcome_of_ne h hid)

theorem exists_foldl_setOutcome (outcomes : List UpdateOutcome)
    {results : List UpdateOutcome} (h : r ∈ results) :
    ∃ o ∈ results.foldl (setOutcome f) outcomes,
      o.identifier = r.identifier := by
  induction results generalizing outcomes with
  | nil => exact nomatch h
  | cons s results ih =>
      rcases List.mem_cons.mp h with rfl | hrest
      · obtain ⟨o, ho, hsame, -⟩ :=
          exists_setOutcome f outcomes r
        obtain ⟨p, hp, hkept⟩ := exists_foldl_of_mem results ho
        exact ⟨p, hp, hkept.trans hsame⟩
      · exact ih (setOutcome f outcomes s) hrest

theorem mem_foldl_of_forall_ne {results : List UpdateOutcome} (h : o ∈ outcomes)
    (hne : ∀ r ∈ results, r.identifier ≠ o.identifier) :
    o ∈ results.foldl (setOutcome f) outcomes := by
  induction results generalizing outcomes with
  | nil => exact h
  | cons r results ih =>
      obtain ⟨hr, hrest⟩ := List.forall_mem_cons.mp hne
      exact ih (mem_setOutcome_of_ne h hr) hrest

/-- The last outcome of an identifier stays. -/
theorem exists_foldl_last (outcomes before : List UpdateOutcome)
    {after : List UpdateOutcome}
    (h : ∀ s ∈ after, s.identifier ≠ r.identifier) :
    ∃ o ∈ (before ++ r :: after).foldl (setOutcome f) outcomes,
      o.identifier = r.identifier ∧ o.resultCode = r.resultCode := by
  rw [List.foldl_append, List.foldl_cons]
  obtain ⟨o, ho, hid, hcode⟩ :=
    exists_setOutcome f (before.foldl (setOutcome f) outcomes) r
  exact ⟨o, mem_foldl_of_forall_ne ho fun s hs => hid ▸ h s hs, hid, hcode⟩

theorem nodup_foldl_setOutcome {results : List UpdateOutcome}
    (h : (outcomes.map (·.identifier)).Nodup) :
    ((results.foldl (setOutcome f) outcomes).map (·.identifier)).Nodup := by
  induction results generalizing outcomes with
  | nil => exact h
  | cons r results ih => exact ih (nodup_setOutcome h)

theorem mem_identifiersWhere {p : UpdateOutcome → Bool} {id : String} :
    id ∈ identifiersWhere p outcomes ↔
      ∃ o ∈ outcomes, p o = true ∧ o.identifier = id := by
  simp only [identifiersWhere, List.mem_map, List.mem_filter, and_assoc]

theorem mem_retryableKBs {kb : String} :
    kb ∈ retryableKBs outcomes ↔ ∃ o ∈ outcomes,
      o.resultCode ≠ orcSucceeded ∧ matchesKBTarget o.identifier = true ∧
        o.identifier = kb := by
  rw [retryableKBs, List.mem_insertionSort, mem_identifiersWhere]
  simp only [succeeded, Bool.and_eq_true, Bool.not_eq_true',
    decide_eq_false_iff_not, and_assoc, ne_eq]

end Entries
/-! ## One installation -/

section Install

variable {a : Attempt} {u : ApplicableUpdate}

/-- Every target of an accepted selection is a KB number. -/
theorem matchesKBTarget_of_normalize {t' : InstallTargets}
    (h : normalizeInstallTargets toUpper toLower t = some t') {value : String}
    (hvalue : value ∈ t.kbIDs) :
    matchesKBTarget (normalKB toUpper value) = true := by
  rw [normalizeInstallTargets] at h
  split at h
  · exact nomatch h
  · split at h
    · exact nomatch h
    · split at h
      · exact nomatch h
      · next hmatches =>
        rw [not_or, not_not, List.all_eq_true] at hmatches
        exact hmatches.1 _ (List.mem_map_of_mem hvalue)

theorem mem_asked_install
    (h : u ∈ (install same a t toUpper toLower).1.asked) :
    ∃ t', normalizeInstallTargets toUpper toLower t = some t' ∧
      u ∈ a.search ∧ picks same t' u = true := by
  rw [install] at h
  cases hnormal : normalizeInstallTargets toUpper toLower t with
  | none =>
      rw [hnormal] at h
      exact nomatch h
  | some t' =>
      rw [hnormal] at h
      simp only [psInstallScript] at h
      refine ⟨t', rfl, List.mem_filter.mp ?_⟩
      split at h
      · exact h
      · exact nomatch h
      · split at h
        · exact nomatch h
        · split at h
          · exact nomatch h
          · exact h

/-- What is printed has one result for each update installed. -/
theorem results_of_install {r : InstallResult}
    (h : (install same a t toUpper toLower).2 = some r) :
    r.results = (install same a t toUpper toLower).1.asked.map (outcomeOf a) ∧
      (∀ u ∈ (install same a t toUpper toLower).1.asked,
        (install same a t toUpper toLower).1.code u =
          some (a.result u).resultCode) ∧
      r.installedKBs = identifiersWhere succeeded r.results := by
  rw [install] at h ⊢
  cases hnormal : normalizeInstallTargets toUpper toLower t with
  | none =>
      rw [hnormal] at h
      exact nomatch h
  | some t' =>
      rw [hnormal] at h
      simp only [psInstallScript] at h ⊢
      cases hends : a.ends with
      | unread =>
          rw [hends] at h
          exact nomatch h
      | caught message =>
          rw [hends] at h
          rw [← Option.some.inj h]
          exact ⟨rfl, nofun, rfl⟩
      | lists =>
          rw [hends] at h
          simp only at h ⊢
          split at h
          · rw [← Option.some.inj h]
            next hsearch =>
            rw [if_pos hsearch]
            exact ⟨rfl, nofun, rfl⟩
          · next hsearch =>
            rw [if_neg hsearch]
            split at h
            · next hnone =>
              rw [← Option.some.inj h, if_pos hnone]
              exact ⟨rfl, nofun, rfl⟩
            · next hsome =>
              rw [← Option.some.inj h, if_neg hsome]
              exact ⟨rfl, fun _ _ => rfl, rfl⟩

end Install

/-! ## From attempt to attempt -/

/-- What is true once the last attempt has been made. -/
structure Settled (same : String → String → Bool)
    (updates : List ApplicableUpdate) (t : InstallTargets)
    (made : List Installation) (outcomes : List UpdateOutcome) : Prop where
  ordered : ∀ i ∈ made, ∀ u ∈ i.asked, u ∈ updates ∧ picks same t u = true
  noneAgain : NoneAgain made
  installed : ∀ o ∈ outcomes, o.resultCode = orcSucceeded →
    ∃ u, identifier u = o.identifier ∧
      lastCode made u = some (some orcSucceeded)
  listed : ∀ i ∈ made, ∀ u ∈ i.asked, ∃ o ∈ outcomes,
    o.identifier = identifier u

/-- Every entry is the last outcome of an update that goes by its
identifier. -/
structure Tracks (same : String → String → Bool)
    (updates : List ApplicableUpdate) (t : InstallTargets)
    (made : List Installation) (outcomes : List UpdateOutcome) : Prop where
  ordered : ∀ i ∈ made, ∀ u ∈ i.asked, u ∈ updates ∧ picks same t u = true
  noneAgain : NoneAgain made
  entries : ∀ o ∈ outcomes, ∃ u, identifier u = o.identifier ∧
    lastCode made u = some (some o.resultCode)
  listed : ∀ i ∈ made, ∀ u ∈ i.asked, ∃ o ∈ outcomes,
    o.identifier = identifier u

theorem Tracks.settled (h : Tracks same updates t made outcomes) :
    Settled same updates t made outcomes where
  ordered := h.ordered
  noneAgain := h.noneAgain
  installed := by
    intro o ho hcode
    obtain ⟨u, hu, hlast⟩ := h.entries o ho
    exact ⟨u, hu, hcode ▸ hlast⟩
  listed := h.listed

theorem tracks_nil : Tracks same updates t [] [] :=
  ⟨nofun, List.Pairwise.nil, nofun, nofun⟩

theorem lastCode_of_mem {i : Installation} (hi : i ∈ made)
    {u : ApplicableUpdate} (hu : u ∈ i.asked) :
    ∃ c, lastCode made u = some c := by
  induction made with
  | nil => exact nomatch hi
  | cons j made ih =>
      rw [lastCode]
      split
      · exact ⟨_, rfl⟩
      · next hj =>
        rcases List.mem_cons.mp hi with rfl | hi
        · exact absurd hu hj
        · exact ih hi

/-- Attempting what has not succeeded. -/
theorem noneAgain_cons {i : Installation} (h : NoneAgain made)
    (hfailed : ∀ u ∈ i.asked, ∀ c, lastCode made u = some c →
      c ≠ some orcSucceeded) : NoneAgain (i :: made) := by
  refine List.pairwise_cons.mpr ⟨fun j hj u hu huj => ?_, h⟩
  obtain ⟨c, hc⟩ := lastCode_of_mem hj huj
  exact code_ne_of_lastCode h hc (hfailed u hu c hc) hj huj

theorem Tracks.goOn {f : Option UpdateOutcome → Int} {a : Attempt}
    {i : Installation} {results : List UpdateOutcome}
    (h : Tracks same updates t made outcomes)
    (hordered : ∀ u ∈ i.asked, u ∈ updates ∧ picks same t u = true)
    (hfailed : ∀ u ∈ i.asked, ∀ c, lastCode made u = some c →
      c ≠ some orcSucceeded)
    (hresults : results = i.asked.map (outcomeOf a))
    (hcode : ∀ u ∈ i.asked, i.code u = some (a.result u).resultCode) :
    Tracks same updates t (i :: made)
      (results.foldl (setOutcome f) outcomes) := by
  subst hresults
  refine ⟨?_, noneAgain_cons h.noneAgain hfailed, ?_, ?_⟩
  · exact List.forall_mem_cons.mpr ⟨hordered, h.ordered⟩
  · intro o ho
    rcases mem_foldl_setOutcome ho with ⟨r, hr, hid, hsame⟩ | ⟨hold, hne⟩
    · obtain ⟨u, hu, rfl⟩ := List.mem_map.mp hr
      refine ⟨u, hid, ?_⟩
      rw [lastCode, if_pos hu, hcode u hu, ← hsame]
      rfl
    · obtain ⟨u, hu, hlast⟩ := h.entries o hold
      have hnot : u ∉ i.asked :=
        fun hasked => hne _ (List.mem_map_of_mem hasked) hu
      exact ⟨u, hu, by rw [lastCode, if_neg hnot, hlast]⟩
  · intro j hj u hu
    rcases List.mem_cons.mp hj with rfl | hj
    · exact exists_foldl_setOutcome _
        (List.mem_map_of_mem (f := outcomeOf a) hu)
    · obtain ⟨o, ho, hid⟩ := h.listed j hj u hu
      obtain ⟨o', ho', hsame⟩ := exists_foldl_of_mem _ ho
      exact ⟨o', ho', hsame.trans hid⟩

/-- After an attempt whose results could not be read the entries stand. -/
theorem Tracks.unread {i : Installation}
    (h : Tracks same updates t made outcomes)
    (hfailed : ∀ u ∈ i.asked, ∃ c, lastCode made u = some (some c) ∧
      c ≠ orcSucceeded) : Settled same updates t (i :: made) outcomes := by
  have hbefore : ∀ u ∈ i.asked, ∃ j ∈ made, u ∈ j.asked := by
    intro u hu
    obtain ⟨c, hlast, -⟩ := hfailed u hu
    exact exists_of_lastCode hlast
  refine ⟨?_, noneAgain_cons h.noneAgain ?_, ?_, ?_⟩
  · refine List.forall_mem_cons.mpr ⟨fun u hu => ?_, h.ordered⟩
    obtain ⟨j, hj, huj⟩ := hbefore u hu
    exact h.ordered j hj u huj
  · intro u hu c hlast
    obtain ⟨d, hd, hne⟩ := hfailed u hu
    rw [hlast] at hd
    rw [Option.some.inj hd]
    exact fun heq => hne (Option.some.inj heq)
  · intro o ho hcode
    obtain ⟨u, hu, hlast⟩ := h.settled.installed o ho hcode
    have hnot : u ∉ i.asked := by
      intro hasked
      obtain ⟨d, hd, hne⟩ := hfailed u hasked
      rw [hlast] at hd
      exact hne (Option.some.inj (Option.some.inj hd)).symm
    exact ⟨u, hu, by rw [lastCode, if_neg hnot, hlast]⟩
  · refine List.forall_mem_cons.mpr ⟨fun u hu => ?_, h.listed⟩
    obtain ⟨j, hj, huj⟩ := hbefore u hu
    exact h.listed j hj u huj

/-- A retry asks for what has failed. -/
theorem failed_of_retried (toLower : String → String) {a : Attempt}
    (h : Tracks same updates t made outcomes)
    (hapart : RetriesApart toUpper same updates t)
    (hsearch : a.search ⊆ updates) {v : ApplicableUpdate}
    (hv : v ∈ (install same a ⟨false, retryableKBs outcomes, []⟩ toUpper
      toLower).1.asked) :
    (v ∈ updates ∧ picks same t v = true) ∧
      ∃ c, lastCode made v = some (some c) ∧ c ≠ orcSucceeded := by
  obtain ⟨t', hnormal, hfound, hpicks⟩ := mem_asked_install hv
  rcases (picks_iff hnormal v).mp hpicks with hall | ⟨id, hid, -⟩ |
    ⟨value, hvalue, kb, hkb, hsame⟩
  · exact nomatch hall
  · exact nomatch hid
  · obtain ⟨o, ho, hne, hmatches, rfl⟩ := mem_retryableKBs.mp hvalue
    obtain ⟨u, hu, hlast⟩ := h.entries o ho
    obtain ⟨i, hi, hasked⟩ := exists_of_lastCode hlast
    obtain ⟨hmem, hordered⟩ := h.ordered i hi u hasked
    have hretried : Retried toUpper u := by
      rw [Retried, hu]
      exact ⟨hmatches, matchesKBTarget_of_normalize hnormal hvalue⟩
    have htargets : picks same (retryTargets toUpper u) v = true := by
      rw [picks, retryTargets, hu]
      refine Bool.or_eq_true_iff.mpr (Or.inr (List.any_eq_true.mpr ?_))
      exact ⟨kb, hkb, List.any_eq_true.mpr ⟨_, List.mem_cons_self, hsame⟩⟩
    obtain rfl := hapart u hmem hordered hretried v (hsearch hfound) htargets
    exact ⟨⟨hmem, hordered⟩, o.resultCode, hlast, hne⟩

theorem settled_retryLoop {attempts : Nat → Attempt}
    (hfinds : ∀ k, (attempts k).search ⊆ updates) {left : Nat}
    (hapart : left ≠ 0 → RetriesApart toUpper same updates t) {attempt : Nat}
    {s : Retrying} (h : Tracks same updates t s.made s.outcomes) :
    Settled same updates t
      (retryLoop toUpper toLower same attempts left attempt s).made
      (retryLoop toUpper toLower same attempts left attempt s).outcomes := by
  induction left generalizing attempt s with
  | zero => exact h.settled
  | succ left ih =>
      rw [retryLoop]
      split
      · exact h.settled
      · have hretried := fun v => failed_of_retried (v := v) toLower h
          (hapart (Nat.succ_ne_zero left)) (hfinds attempt)
        split
        · next i hinstall =>
          rw [hinstall] at hretried
          exact h.unread fun u hu => (hretried u hu).2
        · next i retry hinstall =>
          obtain ⟨hresults, hcode, -⟩ :=
            results_of_install (congrArg Prod.snd hinstall)
          rw [hinstall] at hretried hresults hcode
          refine ih (fun _ => hapart (Nat.succ_ne_zero left)) ?_
          refine h.goOn (fun u hu => (hretried u hu).1) ?_ hresults hcode
          intro u hu c hlast
          obtain ⟨-, d, hd, hne⟩ := hretried u hu
          rw [hlast] at hd
          rw [Option.some.inj hd]
          exact fun heq => hne (Option.some.inj heq)

theorem withinOrder_of_settled {outcomes : List UpdateOutcome} {reboot : Bool}
    {message : String} (h : Settled same updates t made outcomes)
    (hapart : ∀ u ∈ updates, picks same t u = true →
      ∀ v ∈ updates, identifier v = identifier u → v = u) :
    WithinOrder same updates t
      (made, some (assembleInstallResult outcomes reboot message)) where
  ordered i hi u hu := (h.ordered i hi u hu).2
  noneAgain := h.noneAgain
  installed := by
    rintro report hreport v hv hid
    rw [← Option.some.inj hreport] at hid
    obtain ⟨o, ho, hsucceeded, hsame⟩ := mem_identifiersWhere.mp hid
    obtain ⟨u, hu, hlast⟩ := h.installed o ho (of_decide_eq_true hsucceeded)
    obtain ⟨i, hi, hasked⟩ := exists_of_lastCode hlast
    obtain ⟨hmem, hordered⟩ := h.ordered i hi u hasked
    rw [hapart u hmem hordered v hv (hsame.symm.trans hu.symm)]
    exact hlast
  accounted := by
    rintro report hreport i hi u hu
    rw [← Option.some.inj hreport]
    obtain ⟨o, ho, hid⟩ := h.listed i hi u hu
    cases hsucceeded : succeeded o with
    | true => exact Or.inl (mem_identifiersWhere.mpr ⟨o, ho, hsucceeded, hid⟩)
    | false =>
        have hnot : (!succeeded o) = true := by rw [hsucceeded]; rfl
        exact Or.inr (mem_identifiersWhere.mpr ⟨o, ho, hnot, hid⟩)

theorem withinOrder_of_unshared {attempts : Nat → Attempt} {maxAttempts : Int}
    {t' : InstallTargets}
    (hnormal : normalizeInstallTargets toUpper toLower t = some t')
    (hfinds : Finds updates attempts)
    (h : Unshared toUpper same updates t' maxAttempts) :
    WithinOrder same updates t'
      (installWithRetry toUpper toLower same attempts t maxAttempts) := by
  have hordered : ∀ u ∈ (install same (attempts 1) t toUpper toLower).1.asked,
      u ∈ updates ∧ picks same t' u = true := by
    intro u hu
    obtain ⟨n, hn, hfound, hpicks⟩ := mem_asked_install hu
    rw [hnormal] at hn
    rw [Option.some.inj hn]
    exact ⟨hfinds.2 1 hfound, hpicks⟩
  rw [installWithRetry]
  split
  · next i hinstall =>
    rw [hinstall] at hordered
    exact ⟨List.forall_mem_singleton.mpr fun u hu => (hordered u hu).2,
      List.pairwise_singleton _ _, nofun, nofun⟩
  · next i first hinstall =>
    obtain ⟨hresults, hcode, hinstalled⟩ :=
      results_of_install (congrArg Prod.snd hinstall)
    rw [hinstall] at hordered hresults hcode
    split
    · next hnil =>
      have hnone : i.asked = [] := by
        rw [hnil] at hresults
        exact List.map_eq_nil_iff.mp hresults.symm
      refine ⟨?_, List.pairwise_singleton _ _, ?_, ?_⟩
      · exact List.forall_mem_singleton.mpr fun u hu => (hordered u hu).2
      · rintro report hreport u hu hid
        rw [← Option.some.inj hreport, hinstalled, hnil] at hid
        exact nomatch hid
      · rintro report hreport
        rw [List.forall_mem_singleton, hnone]
        exact nofun
    · have htracks : Tracks same updates t' (startRetrying i first).made
          (startRetrying i first).outcomes :=
        tracks_nil.goOn hordered (fun _ _ _ hlast => nomatch hlast) hresults
          hcode
      have hretries : maxAttempts.toNat - 1 ≠ 0 →
          RetriesApart toUpper same updates t' :=
        fun hleft => h.retries (by omega)
      exact withinOrder_of_settled (settled_retryLoop hfinds.2 hretries htracks)
        h.identifiers

/-! ## What goes wrong with shared numbers -/

/-- Every attempt finds all of the updates and installs them, but for one. The
others wait for a restart. -/
def failingOnly (updates : List ApplicableUpdate) (x : ApplicableUpdate)
    (_ : Nat) : Attempt where
  rebootPending := false
  search := updates
  result u := if u = x then ⟨4, 0x80240022, false⟩ else ⟨orcSucceeded, 0, true⟩
  rebootRequired := false
  ends := .lists

section Failing

variable {x u v : ApplicableUpdate} {k : Nat} {maxAttempts : Int}

theorem finds_failingOnly : Finds updates (failingOnly updates x) :=
  ⟨rfl, fun _ => List.Subset.refl _⟩

theorem resultCode_failingOnly :
    (outcomeOf (failingOnly updates x k) u).resultCode = orcSucceeded ↔
      u ≠ x := by
  rw [outcomeOf, failingOnly]
  by_cases h : u = x
  · simp [h, orcSucceeded]
  · simp [h]

/-- The updates that are asked for together, and what becomes of them. -/
def togetherBut (same : String → String → Bool)
    (updates : List ApplicableUpdate) (t : InstallTargets)
    (x : ApplicableUpdate) : Installation where
  asked := updates.filter (picks same t)
  code u := some (if u = x then 4 else orcSucceeded)

theorem install_failingOnly {t' : InstallTargets}
    (hnormal : normalizeInstallTargets toUpper toLower t = some t')
    (hu : u ∈ updates) (hpicks : picks same t' u = true) :
    install same (failingOnly updates x k) t toUpper toLower =
      (togetherBut same updates t' x,
        some (listed same (failingOnly updates x k) t')) := by
  have hfound : u ∈ toInstall same (failingOnly updates x k) t' :=
    List.mem_filter.mpr ⟨hu, hpicks⟩
  have hcode : (fun w => some ((failingOnly updates x k).result w).resultCode) =
      (togetherBut same updates t' x).code := by
    funext w
    rw [failingOnly, togetherBut]
    by_cases h : w = x
    · simp [h]
    · simp [h]
  have hsearch : (failingOnly updates x k).search ≠ [] :=
    List.ne_nil_of_mem (show u ∈ updates from hu)
  have hends : (failingOnly updates x k).ends = .lists := rfl
  rw [install, hnormal]
  simp only [psInstallScript, hends, if_neg hsearch,
    if_neg (List.ne_nil_of_mem hfound), hcode]
  rfl

/-- The entries after the first attempt. -/
def firstOutcomes (same : String → String → Bool)
    (updates : List ApplicableUpdate) (t : InstallTargets)
    (x : ApplicableUpdate) : List UpdateOutcome :=
  ((updates.filter (picks same t)).map
    (outcomeOf (failingOnly updates x 1))).foldl (setOutcome fun _ => 1) []

theorem nodup_firstOutcomes :
    ((firstOutcomes same updates t x).map (·.identifier)).Nodup :=
  nodup_foldl_setOutcome List.nodup_nil

theorem mem_firstOutcomes {o : UpdateOutcome}
    (h : o ∈ firstOutcomes same updates t x) :
    ∃ w ∈ updates, picks same t w = true ∧ identifier w = o.identifier ∧
      (o.resultCode = orcSucceeded ↔ w ≠ x) := by
  rcases mem_foldl_setOutcome h with ⟨r, hr, hid, hcode⟩ | ⟨hnone, -⟩
  · obtain ⟨w, hw, rfl⟩ := List.mem_map.mp hr
    obtain ⟨hmem, hpicks⟩ := List.mem_filter.mp hw
    exact ⟨w, hmem, hpicks, hid, hcode ▸ resultCode_failingOnly⟩
  · exact nomatch hnone

/-- Where the first attempt leaves off. -/
def firstTry (same : String → String → Bool) (updates : List ApplicableUpdate)
    (t : InstallTargets) (x : ApplicableUpdate) : Retrying :=
  startRetrying (togetherBut same updates t x)
    (listed same (failingOnly updates x 1) t)

theorem installWithRetry_failingOnly {t' : InstallTargets}
    (hnormal : normalizeInstallTargets toUpper toLower t = some t')
    (hu : u ∈ updates) (hpicks : picks same t' u = true) :
    installWithRetry toUpper toLower same (failingOnly updates x) t
        maxAttempts =
      let s := retryLoop toUpper toLower same (failingOnly updates x)
        (maxAttempts.toNat - 1) 2 (firstTry same updates t' x)
      (s.made, some
        (assembleInstallResult s.outcomes s.rebootRequired s.message)) := by
  have hresults : (listed same (failingOnly updates x 1) t').results ≠ [] := by
    intro hnil
    have hfound : u ∈ toInstall same (failingOnly updates x 1) t' :=
      List.mem_filter.mpr ⟨hu, hpicks⟩
    rw [List.map_eq_nil_iff.mp hnil] at hfound
    exact nomatch hfound
  rw [installWithRetry, install_failingOnly hnormal hu hpicks]
  exact if_neg hresults

theorem retryLoop_of_none {attempts : Nat → Attempt} {left attempt : Nat}
    {s : Retrying} (h : retryableKBs s.outcomes = []) :
    retryLoop toUpper toLower same attempts left attempt s = s := by
  cases left with
  | zero => rfl
  | succ left => rw [retryLoop, if_pos h]

theorem suffix_retryLoop {attempts : Nat → Attempt} {left attempt : Nat}
    {s : Retrying} :
    s.made <:+
      (retryLoop toUpper toLower same attempts left attempt s).made := by
  induction left generalizing attempt s with
  | zero => exact List.suffix_rfl
  | succ left ih =>
      rw [retryLoop]
      split
      · exact List.suffix_rfl
      · split
        · exact List.suffix_cons _ _
        · next i retry hinstall =>
          exact (List.suffix_cons i s.made).trans
            (ih (s := s.goOn attempt i retry))

/-- The last of the updates that go by an identifier. -/
theorem exists_last {asked : List ApplicableUpdate} {id : String}
    (h : ∃ u ∈ asked, identifier u = id) :
    ∃ before z after, asked = before ++ z :: after ∧ identifier z = id ∧
      ∀ w ∈ after, identifier w ≠ id := by
  induction asked with
  | nil => exact nomatch h
  | cons w asked ih =>
      by_cases hlater : ∃ u ∈ asked, identifier u = id
      · obtain ⟨before, z, after, hsplit, hz, hafter⟩ := ih hlater
        exact ⟨w :: before, z, after, congrArg (w :: ·) hsplit, hz, hafter⟩
      · obtain ⟨u, hu, hid⟩ := h
        rcases List.mem_cons.mp hu with rfl | hu
        · exact ⟨[], u, asked, rfl, hid, fun w hw heq => hlater ⟨w, hw, heq⟩⟩
        · exact absurd ⟨u, hu, hid⟩ hlater

/-- Two entries of one identifier are one. -/
theorem eq_of_mem_firstOutcomes {o p : UpdateOutcome}
    (ho : o ∈ firstOutcomes same updates t x)
    (hp : p ∈ firstOutcomes same updates t x)
    (h : o.identifier = p.identifier) : o = p :=
  List.inj_on_of_nodup_map nodup_firstOutcomes ho hp h

/-- The failure is hidden behind an update of the same identifier. -/
theorem not_withinOrder_of_hidden {t' : InstallTargets} {z : ApplicableUpdate}
    {before after : List ApplicableUpdate}
    (hnormal : normalizeInstallTargets toUpper toLower t = some t')
    (hx : x ∈ updates)
    (hsplit : updates.filter (picks same t') = before ++ z :: after)
    (hafter : ∀ w ∈ after, identifier w ≠ identifier x)
    (hz : identifier z = identifier x) (hne : z ≠ x) :
    ¬ WithinOrder same updates t' (installWithRetry toUpper toLower same
      (failingOnly updates x) t maxAttempts) := by
  intro hwithin
  have hzasked : z ∈ updates.filter (picks same t') :=
    hsplit ▸ List.mem_append_right _ List.mem_cons_self
  obtain ⟨hzmem, hzpicks⟩ := List.mem_filter.mp hzasked
  obtain ⟨o, ho, hid, hcode⟩ : ∃ o ∈ firstOutcomes same updates t' x,
      o.identifier = identifier x ∧ o.resultCode = orcSucceeded := by
    have hlater : ∀ s ∈ after.map (outcomeOf (failingOnly updates x 1)),
        s.identifier ≠ (outcomeOf (failingOnly updates x 1) z).identifier := by
      intro s hs
      obtain ⟨w, hw, rfl⟩ := List.mem_map.mp hs
      exact fun heq => hafter w hw (heq.trans hz)
    rw [firstOutcomes, hsplit, List.map_append, List.map_cons]
    obtain ⟨o, ho, hid, hcode⟩ := exists_foldl_last (f := fun _ => 1)
      (r := outcomeOf (failingOnly updates x 1) z) []
      (before.map (outcomeOf (failingOnly updates x 1))) hlater
    exact ⟨o, ho, hid.trans hz, hcode.trans (resultCode_failingOnly.mpr hne)⟩
  have hnone : retryableKBs (firstOutcomes same updates t' x) = [] := by
    refine List.eq_nil_iff_forall_not_mem.mpr fun kb hkb => ?_
    obtain ⟨p, hp, hfailed, -, -⟩ := mem_retryableKBs.mp hkb
    obtain ⟨w, -, -, hw, hiff⟩ := mem_firstOutcomes hp
    have hwx : w = x := not_not.mp fun h => hfailed (hiff.mpr h)
    have hpo : p = o := eq_of_mem_firstOutcomes hp ho (by rw [← hw, hwx, hid])
    exact hfailed (hpo ▸ hcode)
  rw [installWithRetry_failingOnly hnormal hzmem hzpicks,
    retryLoop_of_none hnone] at hwithin
  have hlast := hwithin.installed _ rfl x hx (mem_identifiersWhere.mpr
    ⟨o, ho, decide_eq_true hcode, hid⟩)
  obtain ⟨i, hi, hasked⟩ := exists_of_lastCode hlast
  rw [List.mem_singleton.mp hi] at hasked
  rw [firstTry, startRetrying, lastCode, if_pos hasked, togetherBut] at hlast
  simp [orcSucceeded] at hlast

theorem identifiers_of_withinOrder {t' : InstallTargets}
    (hnormal : normalizeInstallTargets toUpper toLower t = some t')
    (h : ∀ x, WithinOrder same updates t' (installWithRetry toUpper toLower same
      (failingOnly updates x) t maxAttempts))
    (hu : u ∈ updates) (hpicks : picks same t' u = true) (hv : v ∈ updates)
    (hid : identifier v = identifier u) : v = u := by
  by_contra hne
  obtain ⟨before, z, after, hsplit, hz, hafter⟩ := exists_last
    ⟨u, List.mem_filter.mpr ⟨hu, hpicks⟩, rfl⟩
  by_cases hzv : z = v
  · exact not_withinOrder_of_hidden hnormal hu hsplit hafter hz
      (fun hzu => hne (hzv.symm.trans hzu)) (h u)
  · exact not_withinOrder_of_hidden hnormal hv hsplit
      (fun w hw heq => hafter w hw (heq.trans hid)) (hz.trans hid.symm) hzv
      (h v)

/-! ## What goes wrong with retries -/

theorem normalize_retryTargets (h : Retried toUpper u) :
    normalizeInstallTargets toUpper toLower ⟨false, [identifier u], []⟩ =
      some (retryTargets toUpper u) := by
  rw [normalizeInstallTargets]
  simp [maxInstallTargets, h.2, retryTargets]

/-- With one update failing there is one number to retry. -/
theorem retryableKBs_firstOutcomes (same : String → String → Bool)
    {t' : InstallTargets} (hu : u ∈ updates) (hpicks : picks same t' u = true)
    (hmatches : matchesKBTarget (identifier u) = true)
    (hapart : ∀ w ∈ updates, identifier w = identifier u → w = u) :
    retryableKBs (firstOutcomes same updates t' u) = [identifier u] := by
  have hmem :
      identifier u ∈ retryableKBs (firstOutcomes same updates t' u) := by
    have hasked : u ∈ updates.filter (picks same t') :=
      List.mem_filter.mpr ⟨hu, hpicks⟩
    obtain ⟨o, ho, hid⟩ := exists_foldl_setOutcome (f := fun _ => 1) []
      (List.mem_map_of_mem (f := outcomeOf (failingOnly updates u 1)) hasked)
    have hsame : o.identifier = identifier u := hid
    obtain ⟨w, hw, -, hwid, hiff⟩ := mem_firstOutcomes ho
    refine mem_retryableKBs.mpr
      ⟨o, ho, fun hcode => ?_, hsame ▸ hmatches, hsame⟩
    exact hiff.mp hcode (hapart w hw (hwid.trans hsame))
  have hall : ∀ kb ∈ retryableKBs (firstOutcomes same updates t' u),
      kb = identifier u := by
    intro kb hkb
    obtain ⟨o, ho, hfailed, -, rfl⟩ := mem_retryableKBs.mp hkb
    obtain ⟨w, -, -, hwid, hiff⟩ := mem_firstOutcomes ho
    rw [← hwid, not_not.mp fun hne => hfailed (hiff.mpr hne)]
  have hnodup : (retryableKBs (firstOutcomes same updates t' u)).Nodup := by
    rw [retryableKBs, (List.perm_insertionSort _ _).nodup_iff]
    exact nodup_firstOutcomes.sublist (List.filter_sublist.map _)
  obtain ⟨count, hcount⟩ : ∃ count,
      retryableKBs (firstOutcomes same updates t' u) =
        List.replicate count (identifier u) :=
    ⟨_, List.eq_replicate_of_mem hall⟩
  rw [hcount] at hmem hnodup ⊢
  have hpos : count ≠ 0 := (List.mem_replicate.mp hmem).1
  have hle : count ≤ 1 := List.nodup_replicate.mp hnodup
  obtain rfl : count = 1 := by omega
  rfl

theorem retries_of_withinOrder {t' : InstallTargets}
    (hnormal : normalizeInstallTargets toUpper toLower t = some t')
    (h : ∀ x, WithinOrder same updates t' (installWithRetry toUpper toLower same
      (failingOnly updates x) t maxAttempts))
    (hmax : 2 ≤ maxAttempts) : RetriesApart toUpper same updates t' := by
  intro u hu hpicks hretried v hv hretry
  by_contra hne
  have hretryable := retryableKBs_firstOutcomes same hu hpicks hretried.1
    fun w hw => identifiers_of_withinOrder hnormal h hu hpicks hw
  have hwithin := h u
  rw [installWithRetry_failingOnly hnormal hu hpicks] at hwithin
  obtain ⟨left, hleft⟩ : ∃ left, maxAttempts.toNat - 1 = left + 1 :=
    ⟨maxAttempts.toNat - 2, by omega⟩
  have hmade : [togetherBut same updates (retryTargets toUpper u) u,
      togetherBut same updates t' u] <:+
        (retryLoop toUpper toLower same (failingOnly updates u)
          (maxAttempts.toNat - 1) 2 (firstTry same updates t' u)).made := by
    have houtcomes : (firstTry same updates t' u).outcomes =
        firstOutcomes same updates t' u := rfl
    rw [hleft, retryLoop, houtcomes, hretryable, if_neg (List.cons_ne_nil _ _),
      install_failingOnly (normalize_retryTargets hretried) hv hretry]
    exact suffix_retryLoop (s := (firstTry same updates t' u).goOn 2
      (togetherBut same updates (retryTargets toUpper u) u)
      (listed same (failingOnly updates u 2) (retryTargets toUpper u)))
  have hasked :
      v ∈ (togetherBut same updates (retryTargets toUpper u) u).asked :=
    List.mem_filter.mpr ⟨hv, hretry⟩
  have hordered : picks same t' v = true :=
    hwithin.ordered _ (hmade.subset List.mem_cons_self) v hasked
  have hagain := (List.pairwise_cons.mp (hwithin.noneAgain.sublist
    hmade.sublist)).1 _ List.mem_cons_self v hasked
    (List.mem_filter.mpr ⟨hv, hordered⟩)
  exact hagain (congrArg some (if_neg hne))

end Failing

/-- For these updates, this selection and this number of attempts, every course
of the attempts stays within the order exactly if no other update goes by what
an ordered one is kept and retried under. -/
theorem installWithRetry_withinOrder_iff (toUpper toLower : String → String)
    (same : String → String → Bool) (updates : List ApplicableUpdate)
    (t : InstallTargets) (maxAttempts : Int) :
    (∀ attempts, Finds updates attempts → ∀ t',
        normalizeInstallTargets toUpper toLower t = some t' →
        WithinOrder same updates t'
          (installWithRetry toUpper toLower same attempts t maxAttempts)) ↔
      ∀ t', normalizeInstallTargets toUpper toLower t = some t' →
        Unshared toUpper same updates t' maxAttempts := by
  constructor
  · intro h t' hnormal
    have hwithin := fun x =>
      h (failingOnly updates x) finds_failingOnly t' hnormal
    exact ⟨fun u hu hpicks v hv hid =>
        identifiers_of_withinOrder hnormal hwithin hu hpicks hv hid,
      retries_of_withinOrder hnormal hwithin⟩
  · intro h attempts hfinds t' hnormal
    exact withinOrder_of_unshared hnormal hfinds (h t' hnormal)

/-! ## Two updates under one number -/

def twinID : String := "11111111-1111-1111-1111-111111111111"

def otherTwinID : String := "22222222-2222-2222-2222-222222222222"

def twin : ApplicableUpdate := ⟨twinID, ["5034123"]⟩

def otherTwin : ApplicableUpdate := ⟨otherTwinID, ["5034123"]⟩

/-- The two are found at every attempt, and the first fails. -/
def orderTwins (t : InstallTargets) (maxAttempts : Int) :
    List Installation × Option InstallResult :=
  installWithRetry upperASCII lowerASCII
    sameIgnoringCase (failingOnly [twin, otherTwin] twin) t maxAttempts

/-- Ordered by its update ID the first is retried by its number, which asks for
both. Ordered by the number both are installed, and the number is reported as
installed although the first has failed. -/
theorem retries_leave_order :
    (orderTwins ⟨false, [], [twinID]⟩ 2).1.map (·.asked) =
        [[twin, otherTwin], [twin]] ∧
      ¬ WithinOrder sameIgnoringCase [twin, otherTwin]
        ⟨false, [], [twinID]⟩ (orderTwins ⟨false, [], [twinID]⟩ 2) ∧
      (orderTwins ⟨false, ["KB5034123"], []⟩ 1).2.map (·.installedKBs) =
        some ["KB5034123"] ∧
      lastCode (orderTwins ⟨false, ["KB5034123"], []⟩ 1).1 twin =
        some (some 4) := by
  have hasked : (orderTwins ⟨false, [], [twinID]⟩ 2).1.map (·.asked) =
      [[twin, otherTwin], [twin]] := by decide +kernel
  refine ⟨hasked, fun hwithin => ?_, by decide +kernel, by decide +kernel⟩
  obtain ⟨i, hi, hboth⟩ := List.mem_map.mp
    (hasked ▸ List.mem_cons_self : [twin, otherTwin] ∈
      (orderTwins ⟨false, [], [twinID]⟩ 2).1.map (·.asked))
  have hother : otherTwin ∈ i.asked := by
    rw [hboth]
    exact List.mem_cons_of_mem _ List.mem_cons_self
  exact absurd (hwithin.ordered i hi otherTwin hother) (by decide +kernel)

end NodeLink.Proofs.InstallRetries
