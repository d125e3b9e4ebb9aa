import NodeLink.Lib.Json
import NodeLink.Proofs.VersionOrder
import NodeLink.Server.AgentUpdates

/-!
# Where server and agent order versions alike

Both sides order the numbers of a release alike, and put a prerelease below its
release. They read prerelease identifiers differently. What is spelled with a
minus is a number to the agent only, what exceeds 64 bits is a number to the
server only, and two spellings of one number are equal to the server and end
the comparison for the agent. So the two orders come apart on identifiers of
these spellings, and a release can be sent to an endpoint that refuses it.
-/

namespace NodeLink.Proofs.VersionAgreement

open Lib Server.AgentUpdates
open Agent (Version atoi compareIdentifiers isPrereleaseChar)

/-! ## Spellings of identifiers -/

/-- The number a run of digits stands for. -/
def value (digits : List Char) : Nat := Nat.ofDigitChars 10 digits 0

inductive Spelling where
  /-- Digits, below 2^63. -/
  | number
  /-- Digits, from 2^63 on. -/
  | large
  /-- A minus and digits, down to -2^63. -/
  | negative
  | word
  deriving DecidableEq, Repr

def spelling (l : List Char) : Spelling :=
  if isNumeric l then (if value l < 2 ^ 63 then .number else .large)
  else if l.head? = some '-' ∧ isNumeric l.tail = true ∧
      value l.tail ≤ 2 ^ 63 then .negative
  else .word

/-- What the server takes for a number. -/
def Spelling.numeric : Spelling → Bool
  | .number | .large => true
  | .negative | .word => false

/-- One number, spelled by digits in two ways. -/
def DigitTwins (l r : List Char) : Prop :=
  isNumeric l = true ∧ isNumeric r = true ∧ value l = value r

instance (l r : List Char) : Decidable (DigitTwins l r) :=
  inferInstanceAs (Decidable (_ ∧ _ ∧ _))

/-- Both sides order two different identifiers alike. -/
def PairAlike (l r : List Char) : Prop :=
  match spelling l, spelling r with
  | .large, .large => value l < value r ↔ l < r
  | .large, .word => l < r
  | .word, .large => r < l
  | .negative, .negative => value r.tail < value l.tail ↔ l < r
  | .negative, .word => l < r
  | .word, .negative => r < l
  | .negative, .number => value l.tail = 0 ∧ value r = 0
  | .number, .negative | .large, .negative | .negative, .large => False
  | _, _ => True

/-- What the agent answers for twins: greater, and below only where the number
is too large for it and it compares the texts. -/
def twinSign (l r : List Char) : Ordering :=
  if spelling l = .large ∧ l < r then .lt else .gt

/-- Both sides order two lists of identifiers alike. The first ones that differ
decide, but twins count only for the agent, and the server goes on behind
them. -/
def IdentifiersAlike : List (List Char) → List (List Char) → Prop
  | l :: left, r :: right =>
    if l = r then IdentifiersAlike left right
    else if DigitTwins l r then
      List.compareLex compareItem left right = twinSign l r
    else PairAlike l r
  | _, _ => True

/-- What the server does not put below, the agent does not either. -/
def NotPutBelow : List (List Char) → List (List Char) → Prop
  | l :: left, r :: right =>
    if l = r then NotPutBelow left right
    else if DigitTwins l r then twinSign l r = .gt
    else PairAlike l r
  | _, _ => True

theorem isNumeric_eq (l : List Char) : isNumeric l = (spelling l).numeric := by
  rw [spelling]
  cases h : isNumeric l with
  | true =>
      rw [if_pos rfl]
      split <;> rfl
  | false =>
      rw [if_neg nofun]
      split <;> rfl

theorem isNumeric_iff {l : List Char} :
    isNumeric l = true ↔ ¬ (l = [] ∨ l.all Char.isDigit = false) := by
  rw [isNumeric, Bool.and_eq_true, decide_eq_true_eq, not_or,
    Bool.not_eq_false]

/-- No sign stands before a run of digits. -/
theorem head_of_isNumeric {l : List Char} (h : isNumeric l = true) :
    ¬ (l.head? = some '+' ∨ l.head? = some '-') := by
  obtain ⟨hne, hdigits⟩ := not_or.mp (isNumeric_iff.mp h)
  rw [Bool.not_eq_false, List.all_eq_true] at hdigits
  rintro (hhead | hhead)
  · exact absurd (hdigits _ (List.mem_of_mem_head? hhead)) (by decide)
  · exact absurd (hdigits _ (List.mem_of_mem_head? hhead)) (by decide)

theorem atoi_of_digits {l : List Char} (h : isNumeric l = true) :
    atoi l = if value l < 2 ^ 63 then some (value l : Int) else none := by
  obtain ⟨-, hminus⟩ := not_or.mp (head_of_isNumeric h)
  rw [atoi]
  simp only [if_neg (head_of_isNumeric h), if_neg hminus,
    if_neg (isNumeric_iff.mp h)]
  rw [← value]
  by_cases hsmall : value l < 2 ^ 63
  · rw [if_pos hsmall, if_pos (by omega)]
  · rw [if_neg hsmall, if_neg (by omega)]

theorem atoi_of_minus {l : List Char} (h : l.head? = some '-') :
    atoi l =
      if isNumeric l.tail = true ∧ value l.tail ≤ 2 ^ 63 then
        some (-(value l.tail) : Int) else none := by
  have hsign : l.head? = some '+' ∨ l.head? = some '-' := Or.inr h
  rw [atoi]
  simp only [if_pos hsign, if_pos h]
  by_cases htail : isNumeric l.tail = true
  · simp only [if_neg (isNumeric_iff.mp htail), htail, true_and]
    rw [← value]
    by_cases hsmall : value l.tail ≤ 2 ^ 63
    · rw [if_pos hsmall, if_pos (by omega)]
    · rw [if_neg hsmall, if_neg (by omega)]
  · have hrun : l.tail = [] ∨ l.tail.all Char.isDigit = false :=
      not_not.mp fun h => htail (isNumeric_iff.mpr h)
    rw [if_pos hrun, if_neg fun h => htail h.1]

theorem atoi_of_word {l : List Char} (hnumeric : ¬ isNumeric l = true)
    (hsign : ¬ (l.head? = some '+' ∨ l.head? = some '-')) : atoi l = none := by
  have hrun : l = [] ∨ l.all Char.isDigit = false :=
    not_not.mp fun h => hnumeric (isNumeric_iff.mpr h)
  rw [atoi]
  simp only [if_neg hsign, if_pos hrun]

/-- Where the agent puts an identifier, by its spelling. -/
theorem rank_eq {l : List Char} (hplus : '+' ∉ l) :
    rank l = match spelling l with
      | .number => Sum.inlₗ (value l : Int)
      | .negative => Sum.inlₗ (-(value l.tail) : Int)
      | .large | .word => Sum.inrₗ l := by
  have hhead : l.head? ≠ some '+' := fun h => hplus (List.mem_of_mem_head? h)
  rw [rank, spelling]
  by_cases hnumeric : isNumeric l = true
  · rw [atoi_of_digits hnumeric, if_pos hnumeric]
    by_cases hsmall : value l < 2 ^ 63
    · rw [if_pos hsmall, if_pos hsmall]
    · rw [if_neg hsmall, if_neg hsmall]
  · rw [if_neg hnumeric]
    by_cases hminus : l.head? = some '-'
    · rw [atoi_of_minus hminus]
      by_cases htail : isNumeric l.tail = true ∧ value l.tail ≤ 2 ^ 63
      · rw [if_pos htail, if_pos ⟨hminus, htail⟩]
      · rw [if_neg htail, if_neg fun h => htail h.2]
    · rw [atoi_of_word hnumeric (not_or.mpr ⟨hhead, hminus⟩),
        if_neg fun h => hminus h.1]

/-! ## One pair of identifiers -/

theorem compareText_eq {l r : List Char} (hne : l ≠ r) :
    List.compareLex (fun c d => compare c.toNat d.toNat) l r =
      if l < r then .lt else .gt := by
  induction l generalizing r with
  | nil =>
      cases r with
      | nil => exact absurd rfl hne
      | cons d r =>
          rw [List.compareLex_nil_cons, if_pos (List.nil_lt_cons d r)]
  | cons c l ih =>
      cases r with
      | nil => rw [List.compareLex_cons_nil, if_neg (List.not_lt_nil _)]
      | cons d r =>
          rw [List.compareLex_cons_cons]
          rcases lt_trichotomy c d with hlt | rfl | hgt
          · rw [compare_lt_iff_lt.mpr (show c.toNat < d.toNat from hlt),
              if_pos (List.cons_lt_cons_iff.mpr (Or.inl hlt))]
            rfl
          · have hrest : l ≠ r := fun h => hne (by rw [h])
            rw [compare_eq_iff_eq.mpr rfl]
            refine (ih hrest).trans ?_
            simp only [List.cons_lt_cons_iff, lt_irrefl, false_or, true_and]
          · rw [compare_gt_iff_gt.mpr (show d.toNat < c.toNat from hgt), if_neg]
            · rfl
            · intro h
              rcases List.cons_lt_cons_iff.mp h with h | ⟨rfl, -⟩
              · exact absurd h (lt_asymm hgt)
              · exact absurd hgt (lt_irrefl _)

theorem compareText_self (l : List Char) :
    List.compareLex (fun c d => compare c.toNat d.toNat) l l = .eq := by
  induction l with
  | nil => rfl
  | cons c l ih =>
      rw [List.compareLex_cons_cons, compare_eq_iff_eq.mpr rfl]
      exact ih

theorem compareItem_self (l : List Char) : compareItem l l = .eq := by
  rw [compareItem]
  cases isNumeric l with
  | true => exact compare_eq_iff_eq.mpr rfl
  | false => exact compareText_self l

theorem compareItem_twins {l r : List Char} (h : DigitTwins l r) :
    compareItem l r = .eq := by
  obtain ⟨hl, hr, hvalue⟩ := h
  rw [compareItem, hl, hr]
  exact compare_eq_iff_eq.mpr hvalue

/-- The server's order of two identifiers that it tells apart. -/
def serverBelow (l r : List Char) : Prop :=
  match isNumeric l, isNumeric r with
  | true, true => value l < value r
  | true, false => True
  | false, true => False
  | false, false => l < r

instance (l r : List Char) : Decidable (serverBelow l r) := by
  unfold serverBelow
  split <;> exact inferInstance

theorem compareItem_eq {l r : List Char} (hne : l ≠ r)
    (htwins : ¬ DigitTwins l r) :
    compareItem l r = if serverBelow l r then .lt else .gt := by
  rw [compareItem]
  cases hl : isNumeric l with
  | true =>
      cases hr : isNumeric r with
      | true =>
          have hvalue : value l ≠ value r := fun h => htwins ⟨hl, hr, h⟩
          have hbelow : serverBelow l r ↔ value l < value r := by
            rw [serverBelow, hl, hr]
          rcases lt_or_gt_of_ne hvalue with hlt | hgt
          · rw [if_pos (hbelow.mpr hlt)]
            exact compare_lt_iff_lt.mpr hlt
          · rw [if_neg fun h => lt_asymm hgt (hbelow.mp h)]
            exact compare_gt_iff_gt.mpr hgt
      | false =>
          have hbelow : serverBelow l r := by
            rw [serverBelow, hl, hr]
            trivial
          rw [if_pos hbelow]
  | false =>
      cases hr : isNumeric r with
      | true =>
          have hbelow : ¬ serverBelow l r := by
            rw [serverBelow, hl, hr]
            exact id
          rw [if_neg hbelow]
      | false =>
          have hbelow : serverBelow l r ↔ l < r := by
            rw [serverBelow, hl, hr]
          refine (compareText_eq hne).trans ?_
          simp only [hbelow]

theorem value_of_number {l : List Char} (h : spelling l = .number) :
    value l < 2 ^ 63 := by
  rw [spelling] at h
  split_ifs at h with hnumeric hsmall
  exact hsmall

theorem value_of_large {l : List Char} (h : spelling l = .large) :
    2 ^ 63 ≤ value l := by
  rw [spelling] at h
  split_ifs at h with hnumeric hsmall
  exact not_lt.mp hsmall

/-- Below for the server is below for the agent exactly on the pairs of the
table. -/
theorem pairAlike_iff {l r : List Char} (hl : '+' ∉ l) (hr : '+' ∉ r)
    (hne : l ≠ r) :
    (serverBelow l r ↔ rank l < rank r) ↔ PairAlike l r := by
  have hswap : ¬ l < r ↔ r < l := by
    rw [not_lt]
    exact ⟨fun h => lt_of_le_of_ne h (Ne.symm hne), le_of_lt⟩
  rw [serverBelow, isNumeric_eq, isNumeric_eq, rank_eq hl, rank_eq hr,
    PairAlike]
  cases hsl : spelling l with
  | number =>
      cases hsr : spelling r with
      | number => simp [Spelling.numeric]
      | large =>
          have hlt := lt_of_lt_of_le (value_of_number hsl) (value_of_large hsr)
          simp [Spelling.numeric, hlt]
      | negative => simp [Spelling.numeric]
      | word => simp [Spelling.numeric]
  | large =>
      cases hsr : spelling r with
      | number =>
          have hlt := lt_of_lt_of_le (value_of_number hsr) (value_of_large hsl)
          simp [Spelling.numeric, lt_asymm hlt]
      | large => simp [Spelling.numeric]
      | negative => simp [Spelling.numeric]
      | word => simp [Spelling.numeric]
  | negative =>
      cases hsr : spelling r with
      | number =>
          simp only [Spelling.numeric, false_iff, Sum.Lex.inl_lt_inl_iff]
          omega
      | large => simp [Spelling.numeric]
      | negative => simp [Spelling.numeric, iff_comm]
      | word => simp [Spelling.numeric]
  | word =>
      cases hsr : spelling r with
      | number => simp [Spelling.numeric]
      | large => simp [Spelling.numeric, hswap]
      | negative => simp [Spelling.numeric, hswap]
      | word => simp [Spelling.numeric]

theorem rank_of_twins {l r : List Char} (hl : '+' ∉ l) (hr : '+' ∉ r)
    (h : DigitTwins l r) :
    (if rank l < rank r then Ordering.lt else .gt) = twinSign l r := by
  obtain ⟨hnl, hnr, hvalue⟩ := h
  rw [isNumeric_eq] at hnl hnr
  rw [rank_eq hl, rank_eq hr, twinSign]
  cases hsl : spelling l with
  | number =>
      cases hsr : spelling r with
      | number => simp [hvalue]
      | large =>
          have hlt := lt_of_lt_of_le (value_of_number hsl) (value_of_large hsr)
          exact absurd hvalue hlt.ne
      | negative | word => rw [hsr] at hnr; exact nomatch hnr
  | large =>
      cases hsr : spelling r with
      | number =>
          have hlt := lt_of_lt_of_le (value_of_number hsr) (value_of_large hsl)
          exact absurd hvalue.symm hlt.ne
      | large => simp
      | negative | word => rw [hsr] at hnr; exact nomatch hnr
  | negative | word => rw [hsl] at hnl; exact nomatch hnl

/-! ## Lists of identifiers -/

/-- No identifier holds a plus. -/
def NoPlus (ids : List (List Char)) : Prop := ∀ l ∈ ids, '+' ∉ l

theorem sign_eq_iff {p q : Prop} [Decidable p] [Decidable q] :
    (if p then Ordering.lt else .gt) = (if q then Ordering.lt else .gt) ↔
      (p ↔ q) := by
  by_cases hp : p <;> by_cases hq : q <;> simp [hp, hq]

theorem identifiersAlike_iff {left right : List (List Char)}
    (hleft : NoPlus left) (hright : NoPlus right) :
    List.compareLex compareItem left right = compareIdentifiers left right ↔
      IdentifiersAlike left right := by
  induction left generalizing right with
  | nil => cases right <;> exact iff_of_true rfl trivial
  | cons l left ih =>
      cases right with
      | nil => exact iff_of_true rfl trivial
      | cons r right =>
          obtain ⟨hl, hleft'⟩ := List.forall_mem_cons.mp hleft
          obtain ⟨hr, hright'⟩ := List.forall_mem_cons.mp hright
          rw [List.compareLex_cons_cons, IdentifiersAlike]
          by_cases hne : l = r
          · subst hne
            rw [if_pos rfl, compareItem_self, compareIdentifiers_same]
            exact ih hleft' hright'
          · rw [if_neg hne, compareIdentifiers_of_ne hne]
            by_cases htwins : DigitTwins l r
            · rw [if_pos htwins, compareItem_twins htwins,
                rank_of_twins hl hr htwins]
              rfl
            · have hthen : (if serverBelow l r then Ordering.lt else .gt).then
                  (List.compareLex compareItem left right) =
                    if serverBelow l r then .lt else .gt := by
                split <;> rfl
              rw [if_neg htwins, compareItem_eq hne htwins, hthen,
                sign_eq_iff]
              exact pairAlike_iff hl hr hne

theorem notPutBelow_iff {left right : List (List Char)}
    (hleft : NoPlus left) (hright : NoPlus right)
    (hserver : List.compareLex compareItem left right ≠ .lt) :
    compareIdentifiers left right ≠ .lt ↔ NotPutBelow left right := by
  induction left generalizing right with
  | nil =>
      cases right with
      | nil => exact iff_of_true nofun trivial
      | cons r right => exact absurd rfl hserver
  | cons l left ih =>
      cases right with
      | nil => exact iff_of_true nofun trivial
      | cons r right =>
          obtain ⟨hl, hleft'⟩ := List.forall_mem_cons.mp hleft
          obtain ⟨hr, hright'⟩ := List.forall_mem_cons.mp hright
          rw [List.compareLex_cons_cons] at hserver
          rw [NotPutBelow]
          by_cases hne : l = r
          · subst hne
            rw [compareItem_self] at hserver
            rw [if_pos rfl, compareIdentifiers_same]
            exact ih hleft' hright' hserver
          · rw [if_neg hne, compareIdentifiers_of_ne hne]
            by_cases htwins : DigitTwins l r
            · rw [if_pos htwins, rank_of_twins hl hr htwins, twinSign]
              split
              · exact iff_of_false (fun h => h rfl) nofun
              · exact iff_of_true nofun rfl
            · -- The server puts the left one above here.
              rw [if_neg htwins, ← pairAlike_iff hl hr hne]
              rw [compareItem_eq hne htwins] at hserver
              by_cases hbelow : serverBelow l r
              · rw [if_pos hbelow] at hserver
                exact absurd rfl hserver
              · by_cases hrank : rank l < rank r
                · simp [hbelow, hrank]
                · simp [hbelow, hrank]

/-! ## Versions -/

/-- The server's order of two versions, once they are read. -/
def serverOrder (a b : Version) : Ordering :=
  (compare a.major b.major).then ((compare a.minor b.minor).then
    ((compare a.patch b.patch).then
      ((compare (if a.prerelease = [] then 1 else 0)
        (if b.prerelease = [] then 1 else 0)).then
          (List.compareLex compareItem (a.prerelease.splitOn '.')
            (b.prerelease.splitOn '.')))))

/-- Only two prereleases of one release can be ordered differently. -/
def SignsAlike (a b : Version) : Prop :=
  numbers a = numbers b → a.prerelease ≠ [] → b.prerelease ≠ [] →
    IdentifiersAlike (a.prerelease.splitOn '.') (b.prerelease.splitOn '.')

def NotBelow (a b : Version) : Prop :=
  numbers a = numbers b → a.prerelease ≠ [] → b.prerelease ≠ [] →
    NotPutBelow (a.prerelease.splitOn '.') (b.prerelease.splitOn '.')

theorem then_compare {x y : Nat} {o : Ordering} :
    (compare x y).then o = if x = y then o else if x < y then .lt else .gt := by
  rcases lt_trichotomy x y with hlt | rfl | hgt
  · rw [compare_lt_iff_lt.mpr hlt, if_neg hlt.ne, if_pos hlt]
    rfl
  · rw [compare_eq_iff_eq.mpr rfl, if_pos rfl]
    rfl
  · rw [compare_gt_iff_gt.mpr hgt, if_neg hgt.ne', if_neg (lt_asymm hgt)]
    rfl

theorem serverOrder_eq {a b : Version} :
    serverOrder a b =
      if numbers a = numbers b then
        if a.prerelease = [] ∨ b.prerelease = [] then
          prereleaseOrder a.prerelease b.prerelease
        else List.compareLex compareItem (a.prerelease.splitOn '.')
          (b.prerelease.splitOn '.')
      else if numbers a < numbers b then .lt else .gt := by
  have hlt : numbers a < numbers b ↔ a.major < b.major ∨ a.major = b.major ∧
      (a.minor < b.minor ∨ a.minor = b.minor ∧ a.patch < b.patch) := by
    simp [numbers, Prod.Lex.toLex_lt_toLex]
  simp only [numbers_eq_iff, hlt]
  rw [serverOrder, then_compare, then_compare, then_compare, then_compare]
  by_cases hmajor : a.major = b.major
  · by_cases hminor : a.minor = b.minor
    · by_cases hpatch : a.patch = b.patch
      · simp only [hmajor, hminor, hpatch, if_true, true_and]
        by_cases ha : a.prerelease = []
        · by_cases hb : b.prerelease = []
          · simp only [ha, hb, prereleaseOrder, if_true, true_or]
            rfl
          · simp [ha, hb, prereleaseOrder, Ne.symm hb]
        · by_cases hb : b.prerelease = []
          · simp [ha, hb, prereleaseOrder]
          · simp [ha, hb]
      · simp [hmajor, hminor, hpatch]
    · simp [hmajor, hminor]
  · simp [hmajor]

theorem prereleaseOrder_eq {p q : List Char} (hp : p ≠ []) (hq : q ≠ []) :
    prereleaseOrder p q =
      compareIdentifiers (p.splitOn '.') (q.splitOn '.') := by
  rw [prereleaseOrder, if_neg hp, if_neg hq]
  split
  · next h => rw [h]; exact (compareIdentifiers_eq_iff.mpr rfl).symm
  · rfl

theorem serverOrder_eq_compare_iff {a b : Version}
    (ha : NoPlus (a.prerelease.splitOn '.'))
    (hb : NoPlus (b.prerelease.splitOn '.')) :
    serverOrder a b = a.compare b ↔ SignsAlike a b := by
  rw [serverOrder_eq, compare_eq_ite, SignsAlike]
  by_cases hnumbers : numbers a = numbers b
  · rw [if_pos hnumbers, if_pos hnumbers]
    by_cases hsome : a.prerelease = [] ∨ b.prerelease = []
    · rw [if_pos hsome]
      refine iff_of_true rfl fun _ hna hnb => ?_
      exact absurd hsome (not_or.mpr ⟨hna, hnb⟩)
    · obtain ⟨hna, hnb⟩ := not_or.mp hsome
      rw [if_neg hsome, prereleaseOrder_eq hna hnb, identifiersAlike_iff ha hb]
      exact ⟨fun h _ _ _ => h, fun h => h hnumbers hna hnb⟩
  · rw [if_neg hnumbers, if_neg hnumbers]
    exact iff_of_true rfl fun h => absurd h hnumbers

theorem compare_ne_lt_iff {a b : Version}
    (ha : NoPlus (a.prerelease.splitOn '.'))
    (hb : NoPlus (b.prerelease.splitOn '.')) (hserver : serverOrder a b ≠ .lt) :
    a.compare b ≠ .lt ↔ NotBelow a b := by
  rw [serverOrder_eq] at hserver
  rw [compare_eq_ite, NotBelow]
  by_cases hnumbers : numbers a = numbers b
  · rw [if_pos hnumbers] at hserver ⊢
    by_cases hsome : a.prerelease = [] ∨ b.prerelease = []
    · rw [if_pos hsome] at hserver
      refine iff_of_true hserver fun _ hna hnb => ?_
      exact absurd hsome (not_or.mpr ⟨hna, hnb⟩)
    · obtain ⟨hna, hnb⟩ := not_or.mp hsome
      rw [if_neg hsome] at hserver
      rw [prereleaseOrder_eq hna hnb, notPutBelow_iff ha hb hserver]
      exact ⟨fun h _ _ _ => h, fun h => h hnumbers hna hnb⟩
  · rw [if_neg hnumbers] at hserver ⊢
    exact iff_of_true hserver fun h => absurd h hnumbers

/-! ## Reading versions -/

/-- `\d` on ASCII. -/
def AsciiDigits (ops : UpdateOps) : Prop :=
  ∀ c : Char, c.toNat < 128 →
    ops.digit c = if c.isDigit then some (c.toNat - '0'.toNat) else none

variable {ops : UpdateOps}

theorem toNat_of_isDigit {c : Char} (h : c.isDigit = true) : c.toNat < 128 :=
  lt_of_le_of_lt (Char.isDigit_iff_toNat.mp h).2 (by decide)

theorem digit_of_isDigit (hascii : AsciiDigits ops) {c : Char}
    (h : c.isDigit = true) : ops.digit c = some (c.toNat - '0'.toNat) := by
  rw [hascii c (toNat_of_isDigit h), if_pos h]

/-- Two predicates split a list at the same place. -/
theorem splitWhile_congr {α : Type} {p q : α → Bool} {s : List α}
    (hrun : ∀ c ∈ s.takeWhile p, q c = true)
    (hnext : ∀ c ∈ (s.dropWhile p).head?, q c = false) :
    s.takeWhile q = s.takeWhile p ∧ s.dropWhile q = s.dropWhile p := by
  have hrest : (s.dropWhile p).takeWhile q = [] ∧
      (s.dropWhile p).dropWhile q = s.dropWhile p := by
    cases hdrop : s.dropWhile p with
    | nil => exact ⟨rfl, rfl⟩
    | cons c t =>
        have hc : ¬ q c = true := by
          rw [hnext c (by rw [hdrop]; rfl)]
          exact nofun
        exact ⟨List.takeWhile_cons_of_neg hc, List.dropWhile_cons_of_neg hc⟩
  have hsplit : s.takeWhile p ++ s.dropWhile p = s :=
    List.takeWhile_append_dropWhile
  constructor
  · conv_lhs => rw [← hsplit, List.takeWhile_append_of_pos hrun, hrest.1]
    exact List.append_nil _
  · conv_lhs => rw [← hsplit, List.dropWhile_append_of_pos hrun, hrest.2]

theorem digitsValue_eq (hascii : AsciiDigits ops) {digits : List Char}
    (h : ∀ c ∈ digits, c.isDigit = true) :
    digitsValue ops digits = Nat.ofDigitChars 10 digits 0 := by
  rw [digitsValue, Nat.ofDigitChars_eq_foldl]
  refine List.foldl_ext _ _ _ fun n c hc => ?_
  rw [digit_of_isDigit hascii (h c hc)]
  rfl

/-- Where an ASCII letter follows, the server reads the number that the agent
reads. -/
theorem readNumber_of_readField (hascii : AsciiDigits ops) {s rest : List Char}
    {n : Nat} (h : Agent.readField s = some (n, rest))
    (hrest : ∀ c ∈ rest.head?, c.toNat < 128) :
    Server.AgentUpdates.readNumber ops s = some (n, rest) := by
  rw [Agent.readField] at h
  split at h
  · next hlength =>
    obtain ⟨rfl, rfl⟩ := Prod.mk.inj (Option.some.inj h)
    have hdigits : ∀ c ∈ s.takeWhile Char.isDigit, c.isDigit = true :=
      fun c hc => List.mem_takeWhile_imp hc
    have hrun : ∀ c ∈ s.takeWhile Char.isDigit,
        (ops.digit c).isSome = true := by
      intro c hc
      rw [digit_of_isDigit hascii (hdigits c hc)]
      rfl
    have hnext : ∀ c ∈ (s.dropWhile Char.isDigit).head?,
        (ops.digit c).isSome = false := by
      intro c hc
      have hnot : c.isDigit = false := by
        have hhead := List.head?_dropWhile_not Char.isDigit s
        rw [Option.mem_def.mp hc] at hhead
        exact hhead
      rw [hascii c (hrest c hc), hnot]
      rfl
    obtain ⟨htake, hdrop⟩ := splitWhile_congr hrun hnext
    rw [Server.AgentUpdates.readNumber, htake, hdrop, if_pos hlength,
      digitsValue_eq hascii hdigits]
  · exact nomatch h

theorem readDot_eq_some {s t : List Char} (h : Agent.readDot s = some t) :
    s = '.' :: t := by
  rw [Agent.readDot.eq_def] at h
  split at h
  · rw [Option.some.inj h]
  · exact nomatch h

theorem readPrerelease_eq (s : List Char) :
    Agent.readPrerelease s = readPrerelease s := by
  rw [Agent.readPrerelease.eq_def, readPrerelease.eq_def]
  rfl

theorem readPrerelease_eq_some {s p : List Char}
    (h : Agent.readPrerelease s = some p) :
    (∀ c ∈ s.head?, c.toNat < 128) ∧ ∀ c ∈ p, isPrereleaseChar c = true := by
  rw [Agent.readPrerelease.eq_def] at h
  split at h
  · rw [← Option.some.inj h]
    exact ⟨nofun, nofun⟩
  · split at h
    · next hchars =>
      rw [← Option.some.inj h]
      refine ⟨fun c hc => ?_, List.all_eq_true.mp hchars.2.2⟩
      rw [← Option.some.inj hc]
      decide
    · exact nomatch h
  · exact nomatch h

/-- Identifiers hold letters of the prerelease only. -/
theorem noPlus_splitOn {p : List Char}
    (h : ∀ c ∈ p, isPrereleaseChar c = true) : NoPlus (p.splitOn '.') := by
  intro l hl hplus
  have hmem : '+' ∈ ['.'].intercalate (p.splitOn '.') :=
    Json.mem_intercalate hl hplus
  rw [List.intercalate_splitOn] at hmem
  exact absurd (h '+' hmem) (by decide)

/-- What the agent accepts, the server reads the same way. -/
theorem parseVersion_of_agent (hascii : AsciiDigits ops) {raw : String}
    {v : Version} (h : Agent.parseVersion raw = some v) :
    parseVersion ops raw = some (v.major, v.minor, v.patch, v.prerelease) ∧
      NoPlus (v.prerelease.splitOn '.') := by
  simp only [Agent.parseVersion, Option.bind_eq_bind, Option.bind_eq_some_iff,
    Prod.exists] at h
  obtain ⟨major, s₁, hmajor, s₂, hdot, minor, s₃, hminor, s₄, hdot', patch, s₅,
    hpatch, prerelease, hprerelease, hv⟩ := h
  obtain ⟨hhead, hchars⟩ := readPrerelease_eq_some hprerelease
  have hpoint : ∀ c ∈ ('.' :: s₂).head?, c.toNat < 128 :=
    fun c hc => by rw [← Option.some.inj hc]; decide
  have hpoint' : ∀ c ∈ ('.' :: s₄).head?, c.toNat < 128 :=
    fun c hc => by rw [← Option.some.inj hc]; decide
  obtain rfl := readDot_eq_some hdot
  obtain rfl := readDot_eq_some hdot'
  obtain rfl := Option.some.inj hv
  refine ⟨?_, noPlus_splitOn hchars⟩
  rw [parseVersion, readNumber_of_readField hascii hmajor hpoint]
  simp only [Option.bind_eq_bind, Option.bind_some, readPoint]
  rw [readNumber_of_readField hascii hminor hpoint']
  simp only [Option.bind_some]
  rw [readNumber_of_readField hascii hpatch hhead]
  simp only [Option.bind_some]
  rw [← readPrerelease_eq, hprerelease]
  rfl

theorem compareVersions_eq (hascii : AsciiDigits ops) {u v : String}
    {a b : Version} (ha : Agent.parseVersion u = some a)
    (hb : Agent.parseVersion v = some b) :
    compareVersions ops u v = some (serverOrder a b) := by
  rw [compareVersions, (parseVersion_of_agent hascii ha).1,
    (parseVersion_of_agent hascii hb).1]
  rfl

end NodeLink.Proofs.VersionAgreement
