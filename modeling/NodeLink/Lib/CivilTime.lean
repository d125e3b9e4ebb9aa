import Mathlib.Tactic.Ring
import Mathlib.Data.Nat.Basic

/-!
# Civil timestamps

Timestamps of the form `YYYY-MM-DDThh:mm:ss[.ffffff]Z`, read from a list of
character codes so that texts over different alphabets can be read by one
function. A timestamp that reads is the fixed-width rendering of its fields;
the proleptic Gregorian calendar turns the fields into microseconds.
-/

namespace NodeLink.Lib

/-- The fields of a timestamp; `micro` is the fraction, when written. -/
structure Stamp where
  year : Nat
  month : Nat
  day : Nat
  hour : Nat
  minute : Nat
  second : Nat
  micro : Option Nat
  deriving DecidableEq, Repr

/-! ## Fixed-width digits -/

/-- `n` as exactly `k` decimal digits, leading digits cut off. -/
def padDigits : Nat → Nat → List Nat
  | 0, _ => []
  | k + 1, n => (48 + n / 10 ^ k % 10) :: padDigits k n

/-- Exactly `k` decimal digits off the front, continuing from `acc`. -/
def takeDigits : Nat → Nat → List Nat → Option (Nat × List Nat)
  | 0, acc, s => some (acc, s)
  | _ + 1, _, [] => none
  | k + 1, acc, c :: s =>
    if 48 ≤ c ∧ c ≤ 57 then takeDigits k (acc * 10 + (c - 48)) s else none

/-- One given character off the front. -/
def expect (c : Char) : List Nat → Option (List Nat)
  | [] => none
  | d :: s => if d = c.toNat then some s else none

theorem padDigits_add {k n : Nat} (m : Nat) :
    padDigits k (m * 10 ^ k + n) = padDigits k n := by
  induction k generalizing m n with
  | zero => rfl
  | succ k ih =>
      have hdiv : (m * 10 ^ (k + 1) + n) / 10 ^ k = n / 10 ^ k + m * 10 := by
        rw [show m * 10 ^ (k + 1) + n = n + (m * 10) * 10 ^ k by ring,
          Nat.add_mul_div_right _ _ (Nat.pow_pos (by omega))]
      have hrest : m * 10 ^ (k + 1) + n = (m * 10) * 10 ^ k + n := by ring
      rw [padDigits, padDigits, hdiv, hrest, ih, Nat.add_mul_mod_self_right]

/-- Fixed-width digits that read are the fixed-width rendering of the
number read. -/
theorem takeDigits_eq {k acc : Nat} {s t : List Nat} {n : Nat}
    (h : takeDigits k acc s = some (n, t)) :
    ∃ m < 10 ^ k, n = acc * 10 ^ k + m ∧ s = padDigits k m ++ t := by
  induction k generalizing acc s with
  | zero =>
      simp only [takeDigits, Option.some.injEq, Prod.mk.injEq] at h
      exact ⟨0, by simp, by simp [h.1], by simp [padDigits, h.2]⟩
  | succ k ih =>
      cases s with
      | nil => cases h
      | cons c s =>
          rw [takeDigits] at h
          split at h
          · next hc =>
              obtain ⟨m, hm, hn, hs⟩ := ih h
              have hpow : 10 ^ (k + 1) = 10 * 10 ^ k := by ring
              have hlt : (c - 48) * 10 ^ k ≤ 9 * 10 ^ k :=
                Nat.mul_le_mul_right _ (by omega)
              refine ⟨(c - 48) * 10 ^ k + m, by omega, by rw [hn]; ring, ?_⟩
              have hdiv : ((c - 48) * 10 ^ k + m) / 10 ^ k % 10 = c - 48 := by
                rw [Nat.add_comm, Nat.add_mul_div_right _ _
                  (Nat.pow_pos (by omega)), Nat.div_eq_of_lt hm]
                omega
              rw [padDigits, hdiv, padDigits_add, hs, List.cons_append]
              congr 1
              omega
          · cases h

theorem takeDigits_zero_eq {k : Nat} {s t : List Nat} {n : Nat}
    (h : takeDigits k 0 s = some (n, t)) :
    n < 10 ^ k ∧ s = padDigits k n ++ t := by
  obtain ⟨m, hm, hn, hs⟩ := takeDigits_eq h
  obtain rfl : n = m := by simpa using hn
  exact ⟨hm, hs⟩

theorem expect_eq {c : Char} {s t : List Nat} (h : expect c s = some t) :
    s = c.toNat :: t := by
  cases s with
  | nil => cases h
  | cons d s =>
      rw [expect] at h
      split at h
      · next hd => rw [hd, Option.some.inj h]
      · cases h

@[simp] theorem length_padDigits (k n : Nat) : (padDigits k n).length = k := by
  induction k with
  | zero => rfl
  | succ k ih => simp [padDigits, ih]

/-! ## The timestamp grammar -/

/-- The fraction and the final `Z`. -/
def matchFraction (s : List Nat) : Option (Option Nat) := do
  if s = ['Z'.toNat] then some none
  else
    let s ← expect '.' s
    let (micro, s) ← takeDigits 6 0 s
    if s = ['Z'.toNat] then some (some micro) else none

/-- `^\d{4}-\d{2}-\d{2}T\d{2}:\d{2}:\d{2}(?:\.\d{6})?Z$`, with the fields it
matches. -/
def matchTime (s : List Nat) : Option Stamp := do
  let (year, s) ← takeDigits 4 0 s
  let s ← expect '-' s
  let (month, s) ← takeDigits 2 0 s
  let s ← expect '-' s
  let (day, s) ← takeDigits 2 0 s
  let s ← expect 'T' s
  let (hour, s) ← takeDigits 2 0 s
  let s ← expect ':' s
  let (minute, s) ← takeDigits 2 0 s
  let s ← expect ':' s
  let (second, s) ← takeDigits 2 0 s
  let micro ← matchFraction s
  some ⟨year, month, day, hour, minute, second, micro⟩

/-- The text of a fraction and the final `Z`. -/
def fractionText : Option Nat → List Nat
  | none => ['Z'.toNat]
  | some us => '.'.toNat :: padDigits 6 us ++ ['Z'.toNat]

/-- A timestamp's text after the year. -/
def stampTail (st : Stamp) : List Nat :=
  '-'.toNat :: padDigits 2 st.month ++ '-'.toNat :: padDigits 2 st.day
    ++ 'T'.toNat :: padDigits 2 st.hour ++ ':'.toNat :: padDigits 2 st.minute
    ++ ':'.toNat :: padDigits 2 st.second ++ fractionText st.micro

theorem matchFraction_eq {s : List Nat} {micro : Option Nat}
    (h : matchFraction s = some micro) : s = fractionText micro := by
  unfold matchFraction at h
  split at h
  · next hz =>
      obtain rfl := Option.some.inj h
      exact hz
  · simp only [Option.bind_eq_bind, Option.bind_eq_some_iff] at h
    obtain ⟨t, ht, ⟨us, u⟩, hu, h⟩ := h
    simp only [] at h
    split at h
    · next hz =>
        obtain rfl := Option.some.inj h
        rw [expect_eq ht, (takeDigits_zero_eq hu).2, hz]
        rfl
    · cases h

/-- A text that matches is the rendering of its fields. -/
theorem matchTime_eq {s : List Nat} {st : Stamp} (h : matchTime s = some st) :
    st.year < 10000 ∧ s = padDigits 4 st.year ++ stampTail st := by
  simp only [matchTime, Option.bind_eq_bind, Option.bind_eq_some_iff] at h
  obtain ⟨⟨y, s1⟩, hy, s2, h2, ⟨mo, s3⟩, hmo, s4, h4, ⟨d, s5⟩, hd, s6, h6,
    ⟨hh, s7⟩, hhh, s8, h8, ⟨mi, s9⟩, hmi, s10, h10, ⟨sec, s11⟩, hsec,
    us, hus, h⟩ := h
  obtain rfl := Option.some.inj h
  dsimp only at *
  refine ⟨(takeDigits_zero_eq hy).1, ?_⟩
  rw [(takeDigits_zero_eq hy).2, expect_eq h2, (takeDigits_zero_eq hmo).2,
    expect_eq h4, (takeDigits_zero_eq hd).2, expect_eq h6,
    (takeDigits_zero_eq hhh).2, expect_eq h8, (takeDigits_zero_eq hmi).2,
    expect_eq h10, (takeDigits_zero_eq hsec).2, matchFraction_eq hus, stampTail]
  simp only [List.cons_append, List.append_assoc]

/-! ## The calendar -/

def isLeap (y : Nat) : Bool := y % 4 == 0 && (y % 100 != 0 || y % 400 == 0)

def daysInMonth (y m : Nat) : Nat :=
  if m = 2 then (if isLeap y then 29 else 28)
  else if m = 4 ∨ m = 6 ∨ m = 9 ∨ m = 11 then 30
  else 31

/-- The fields name a day of the calendar and a time of that day. -/
def Stamp.validDate (st : Stamp) : Bool :=
  1 ≤ st.month && st.month ≤ 12 && 1 ≤ st.day
    && st.day ≤ daysInMonth st.year st.month && st.hour < 24
    && st.minute < 60 && st.second < 60

/-- Days from the first day of year 0 to the first day of year `y`. -/
def daysBeforeYear (y : Nat) : Nat :=
  365 * y + (y + 3) / 4 - (y + 99) / 100 + (y + 399) / 400

/-- Days from the first day of year `y` to the first day of month `m`. -/
def daysBeforeMonth (y m : Nat) : Nat :=
  ((List.range (m - 1)).map fun i => daysInMonth y (i + 1)).sum

/-- Microseconds from the start of year 0. -/
def Stamp.micros (st : Stamp) : Int :=
  ((((daysBeforeYear st.year + daysBeforeMonth st.year st.month
    + (st.day - 1)) * 24 + st.hour) * 60 + st.minute) * 60 + st.second)
    * 1000000 + st.micro.getD 0

example : (do
    let a ← matchTime ("2024-02-29T00:00:00Z".toList.map Char.toNat)
    let b ← matchTime ("2023-02-28T23:59:59.500000Z".toList.map Char.toNat)
    some (a.micros - b.micros)) = some (365 * 86400000000 + 500000) := by
  decide

end NodeLink.Lib
