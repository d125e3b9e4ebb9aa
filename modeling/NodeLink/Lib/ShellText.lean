import Mathlib

/-!
# Assignments in shell scripts

How a POSIX shell and PowerShell read assignments off the front of a script,
each under its own quoting rules. A text is the list of its code points. A
reader gives up where the text is anything but such an assignment: an operator,
an expansion, a second word.

PowerShell takes four typographic quotation marks for an apostrophe. So doubling
the apostrophes of a text quotes it exactly when the text has none of the four.
-/

namespace NodeLink.Lib.ShellText

abbrev Points := List Nat

def points (s : String) : Points := s.toList.map Char.toNat

/-- A letter, a digit or `_`. -/
def isWord (c : Nat) : Bool :=
  decide (48 ≤ c ∧ c ≤ 57) || decide (65 ≤ c ∧ c ≤ 90) ||
    decide (97 ≤ c ∧ c ≤ 122) || decide (c = 95)

def expect (prefx s : Points) : Option Points :=
  if prefx.isPrefixOf s then some (s.drop prefx.length) else none

/-- A number of statements, one after another. -/
def readMany {α : Type} (read : Points → Option (α × Points)) :
    Nat → Points → Option (List α × Points)
  | 0, s => some ([], s)
  | n + 1, s =>
    match read s with
    | none => none
    | some (a, s) => (readMany read n s).map fun (as, s) => (a :: as, s)

/-! ## A POSIX shell -/

inductive Quoting where
  | bare
  | single
  | double
  deriving DecidableEq, Repr

/-- A word up to the end of its line. -/
def posixWord : Quoting → Points → Option (Points × Points)
  | .bare, [] => some ([], [])
  | _, [] => none
  | .bare, c :: s =>
    if c = 10 then some ([], c :: s)
    else if c = 39 then posixWord .single s
    else if c = 34 then posixWord .double s
    else if isWord c then (posixWord .bare s).map fun (w, s) => (c :: w, s)
    else none
  | .single, c :: s =>
    if c = 39 then posixWord .bare s
    else (posixWord .single s).map fun (w, s) => (c :: w, s)
  | .double, c :: s =>
    if c = 34 then posixWord .bare s
    -- an expansion or an escape
    else if c = 36 ∨ c = 92 ∨ c = 96 then none
    else (posixWord .double s).map fun (w, s) => (c :: w, s)

/-- An assignment, and the export of its variable. -/
def posixBinding (s : Points) : Option ((Points × Points) × Points) :=
  let name := s.takeWhile isWord
  match expect [61] (s.dropWhile isWord) with
  | none => none
  | some s =>
    match posixWord .bare s with
    | none => none
    | some (value, s) =>
      (expect ([10] ++ points "export " ++ name ++ [10]) s).map fun s =>
        ((name, value), s)

/-- Each apostrophe outside of the quotes, in quotes of its own. -/
def posixQuoted (s : Points) : Points :=
  [39] ++ s.flatMap (fun c => if c = 39 then [39, 34, 39, 34, 39] else [c]) ++ [39]

/-! ## PowerShell -/

/-- What closes a single-quoted string. -/
def isSingleQuote (c : Nat) : Bool :=
  decide (c = 39) || decide (c = 0x2018) || decide (c = 0x2019) ||
    decide (c = 0x201a) || decide (c = 0x201b)

/-- A quotation mark that is not the apostrophe. -/
def isTypographic (c : Nat) : Bool := isSingleQuote c && decide (c ≠ 39)

/-- The rest of a single-quoted string, where two quotes stand for one. -/
def singleQuoted : Points → Option (Points × Points)
  | [] => none
  | [c] => if isSingleQuote c then some ([], []) else none
  | c :: d :: s =>
    if isSingleQuote c then
      if isSingleQuote d then (singleQuoted s).map fun (w, s) => (d :: w, s)
      else some ([], d :: s)
    else (singleQuoted (d :: s)).map fun (w, s) => (c :: w, s)

def isDigit (c : Nat) : Bool := decide (48 ≤ c ∧ c ≤ 57)

def dropSign : Points → Points
  | [] => []
  | c :: s => if c = 43 ∨ c = 45 then s else c :: s

/-- Nothing, or the exponent of a number. -/
def isExponent : Points → Bool
  | [] => true
  | c :: s =>
    decide (c = 69 ∨ c = 101) && !(dropSign s).isEmpty && (dropSign s).all isDigit

/-- Nothing, or a point and digits, and what follows. -/
def splitFraction : Points → Points × Points
  | [] => ([], [])
  | c :: s =>
    if c = 46 then (s.takeWhile isDigit, s.dropWhile isDigit) else ([], c :: s)

/-- A number, with a sign. -/
def isDecimal (s : Points) : Bool :=
  let whole := (dropSign s).takeWhile isDigit
  let (fraction, rest) := splitFraction ((dropSign s).dropWhile isDigit)
  !(whole ++ fraction).isEmpty && isExponent rest

inductive Value where
  | text (s : Points)
  | bool (b : Bool)
  | number (s : Points)
  deriving DecidableEq, Repr

/-- A literal of PowerShell. -/
def powershellLiteral (s : Points) : Option (Value × Points) :=
  match s with
  | [] => none
  | c :: t =>
    if isSingleQuote c then (singleQuoted t).map fun (w, s) => (.text w, s)
    else if c = 36 then
      if t.takeWhile isWord = points "true" then
        some (.bool true, t.dropWhile isWord)
      else if t.takeWhile isWord = points "false" then
        some (.bool false, t.dropWhile isWord)
      else none
    else
      let number := s.takeWhile fun c => decide (c ≠ 10)
      if isDecimal number then
        some (.number number, s.dropWhile fun c => decide (c ≠ 10))
      else none

def powershellBinding (s : Points) : Option ((Points × Value) × Points) :=
  match expect [36] s with
  | none => none
  | some s =>
    let name := s.takeWhile isWord
    match expect (points " = ") (s.dropWhile isWord) with
    | none => none
    | some s =>
      match powershellLiteral s with
      | none => none
      | some (value, s) => (expect [10] s).map fun s => ((name, value), s)

/-- The apostrophes doubled. -/
def powershellQuoted (s : Points) : Points :=
  [39] ++ s.flatMap (fun c => if c = 39 then [39, 39] else [c]) ++ [39]

/-! ## Reading one statement after another -/

theorem expect_append (p s : Points) : expect p (p ++ s) = some s := by
  rw [expect, if_pos (List.isPrefixOf_iff_prefix.mpr (List.prefix_append p s)),
    List.drop_left]

theorem expect_length {p s t : Points} (h : expect p s = some t) :
    s.length = p.length + t.length := by
  unfold expect at h
  split at h
  · next hp =>
      cases h
      have hle := (List.isPrefixOf_iff_prefix.mp hp).length_le
      rw [List.length_drop]
      omega
  · cases h

section Many

variable {α : Type} {read : Points → Option (α × Points)}

theorem readMany_flatMap (text : α → Points) {as : List α}
    (h : ∀ a ∈ as, ∀ s, read (text a ++ s) = some (a, s)) (s : Points) :
    readMany read as.length (as.flatMap text ++ s) = some (as, s) := by
  induction as with
  | nil => rfl
  | cons a as ih =>
      rw [List.flatMap_cons, List.append_assoc, List.length_cons, readMany,
        h a List.mem_cons_self]
      simp only
      rw [ih fun b hb => h b (List.mem_cons_of_mem a hb)]
      rfl

theorem readMany_length {width : α → Nat}
    (h : ∀ s a t, read s = some (a, t) → s.length = width a + t.length)
    {n : Nat} {as : List α} {s t : Points}
    (hread : readMany read n s = some (as, t)) :
    s.length = (as.map width).sum + t.length := by
  induction n generalizing s as with
  | zero =>
      cases hread
      simp
  | succ n ih =>
      unfold readMany at hread
      split at hread
      · cases hread
      · next a u hu =>
          obtain ⟨⟨bs, v⟩, hv, heq⟩ := Option.map_eq_some_iff.mp hread
          cases heq
          have hfirst := h s a u hu
          have hrest := ih hv
          rw [List.map_cons, List.sum_cons]
          omega

theorem readMany_all {P : α → Prop} (h : ∀ s a t, read s = some (a, t) → P a)
    {n : Nat} {as : List α} {s t : Points}
    (hread : readMany read n s = some (as, t)) : ∀ a ∈ as, P a := by
  induction n generalizing s as with
  | zero =>
      cases hread
      exact fun a ha => by cases ha
  | succ n ih =>
      unfold readMany at hread
      split at hread
      · cases hread
      · next a u hu =>
          obtain ⟨⟨bs, v⟩, hv, heq⟩ := Option.map_eq_some_iff.mp hread
          cases heq
          intro b hb
          rcases List.mem_cons.mp hb with rfl | hb
          · exact h s b u hu
          · exact ih hv b hb

end Many

/-! ## Quoting for a POSIX shell -/

/-- Out of the quotes, the apostrophe in double quotes, and back. -/
theorem posixWord_apostrophe (s : Points) :
    posixWord .single (39 :: 34 :: 39 :: 34 :: 39 :: s) =
      (posixWord .single s).map fun (w, t) => (39 :: w, t) := by
  simp [posixWord]

theorem posixWord_single (s t : Points) : posixWord .single
    (s.flatMap (fun c => if c = 39 then [39, 34, 39, 34, 39] else [c]) ++ 39 :: t) =
      (posixWord .bare t).map fun (w, t) => (s ++ w, t) := by
  induction s with
  | nil =>
      rw [List.flatMap_nil, List.nil_append, posixWord, if_pos rfl]
      cases posixWord .bare t with
      | none => rfl
      | some r => rfl
  | cons c s ih =>
      rw [List.flatMap_cons, List.append_assoc]
      by_cases hc : c = 39
      · rw [if_pos hc, hc]
        simp only [List.cons_append, List.nil_append]
        rw [posixWord_apostrophe, ih, Option.map_map]
        rfl
      · rw [if_neg hc, List.cons_append, List.nil_append, posixWord, if_neg hc, ih,
          Option.map_map]
        rfl

theorem posixWord_quoted (s t : Points) :
    posixWord .bare (posixQuoted s ++ 10 :: t) = some (s, 10 :: t) := by
  have hend : posixWord .bare (10 :: t) = some ([], 10 :: t) := by
    rw [posixWord, if_pos rfl]
  rw [posixQuoted, List.append_assoc, List.append_assoc, List.cons_append,
    List.nil_append, posixWord, if_neg (by decide), if_pos rfl, List.cons_append,
    List.nil_append, posixWord_single, hend]
  simp only [Option.map_some, List.append_nil]

/-- A name and what is assigned to it, as it is written for the shell. -/
def posixText (b : Points × Points) : Points :=
  b.1 ++ [61] ++ posixQuoted b.2 ++ [10] ++ points "export " ++ b.1 ++ [10]

theorem takeWhile_name {name s : Points} {c : Nat} (hname : ∀ a ∈ name, isWord a = true)
    (hc : isWord c = false) : (name ++ c :: s).takeWhile isWord = name := by
  rw [List.takeWhile_append_of_pos hname, List.takeWhile_cons_of_neg (by rw [hc]; decide),
    List.append_nil]

theorem dropWhile_name {name s : Points} {c : Nat} (hname : ∀ a ∈ name, isWord a = true)
    (hc : isWord c = false) : (name ++ c :: s).dropWhile isWord = c :: s := by
  rw [List.dropWhile_append_of_pos hname, List.dropWhile_cons_of_neg (by rw [hc]; decide)]

/-- Whatever the value is, it is read back. -/
theorem posixBinding_text {name : Points} (hname : ∀ a ∈ name, isWord a = true)
    (value s : Points) :
    posixBinding (posixText (name, value) ++ s) = some ((name, value), s) := by
  have htext : posixText (name, value) ++ s = name ++ 61 :: (posixQuoted value ++
      10 :: (points "export " ++ name ++ [10] ++ s)) := by
    simp only [posixText, List.append_assoc, List.cons_append, List.nil_append]
  have hexpect : ∀ u, expect [61] (61 :: u) = some u := fun u => expect_append [61] u
  rw [htext, posixBinding]
  rw [dropWhile_name hname (by decide), takeWhile_name hname (by decide), hexpect]
  simp only
  rw [posixWord_quoted]
  simp only
  rw [show 10 :: (points "export " ++ name ++ [10] ++ s) =
    ([10] ++ points "export " ++ name ++ [10]) ++ s by
      simp only [List.append_assoc, List.cons_append, List.nil_append], expect_append]
  rfl

/-! ## Quoting for PowerShell -/

theorem singleQuoted_doubled {s t : Points} (h : ∀ c ∈ s, isTypographic c = false) :
    singleQuoted (s.flatMap (fun c => if c = 39 then [39, 39] else [c]) ++
      39 :: 10 :: t) = some (s, 10 :: t) := by
  induction s with
  | nil => simp [singleQuoted, isSingleQuote]
  | cons c s ih =>
      have ih := ih fun d hd => h d (List.mem_cons_of_mem c hd)
      rw [List.flatMap_cons, List.append_assoc]
      by_cases hc : c = 39
      · rw [if_pos hc, hc]
        simp only [List.cons_append, List.nil_append]
        rw [singleQuoted, if_pos (by decide), if_pos (by decide), ih]
        rfl
      · have hplain : isSingleQuote c = false := by
          have hnot := h c List.mem_cons_self
          rw [isTypographic, decide_eq_true hc, Bool.and_true] at hnot
          exact hnot
        rw [if_neg hc, List.cons_append, List.nil_append]
        cases hrest : s.flatMap (fun c => if c = 39 then [39, 39] else [c]) ++
            39 :: 10 :: t with
        | nil =>
            rw [hrest] at ih
            cases ih
        | cons d u =>
            rw [hrest] at ih
            rw [singleQuoted, if_neg (by rw [hplain]; decide), ih]
            rfl

/-- A string is as long as its characters, its quotes counted twice, and the
quote that closes it. -/
theorem singleQuoted_length {s w t : Points} (h : singleQuoted s = some (w, t)) :
    s.length = w.length + w.countP isSingleQuote + 1 + t.length := by
  induction s using singleQuoted.induct generalizing w with
  | case1 => cases h
  | case2 c hc =>
      rw [singleQuoted, if_pos hc] at h
      cases h
      rfl
  | case3 c hc =>
      rw [singleQuoted, if_neg hc] at h
      cases h
  | case4 c d s hc hd ih =>
      rw [singleQuoted, if_pos hc, if_pos hd] at h
      obtain ⟨⟨v, u⟩, hv, heq⟩ := Option.map_eq_some_iff.mp h
      cases heq
      have hlen := ih hv
      rw [List.countP_cons_of_pos hd]
      simp only [List.length_cons]
      omega
  | case5 c d s hc hd =>
      rw [singleQuoted, if_pos hc, if_neg hd] at h
      cases h
      simp only [List.length_cons, List.length_nil, List.countP_nil]
      omega
  | case6 c d s hc ih =>
      rw [singleQuoted, if_neg hc] at h
      obtain ⟨⟨v, u⟩, hv, heq⟩ := Option.map_eq_some_iff.mp h
      cases heq
      have hlen := ih hv
      rw [List.countP_cons_of_neg hc]
      simp only [List.length_cons] at hlen ⊢
      omega

/-- A value as it is written for PowerShell. -/
def Value.literal : Value → Points
  | .text s => powershellQuoted s
  | .bool true => points "$true"
  | .bool false => points "$false"
  | .number s => s

def powershellText (b : Points × Value) : Points :=
  [36] ++ b.1 ++ points " = " ++ b.2.literal ++ [10]

/-- A value that PowerShell reads as it is written. -/
def Value.Plain : Value → Prop
  | .text s => ∀ c ∈ s, isTypographic c = false
  | .bool _ => True
  | .number s => isDecimal s = true

/-- What a number is written with. -/
def isNumeric (c : Nat) : Bool :=
  isDigit c || decide (c = 43) || decide (c = 45) || decide (c = 46) ||
    decide (c = 69) || decide (c = 101)

theorem isNumeric_of_isDigit {c : Nat} (h : isDigit c = true) :
    isNumeric c = true := by
  simp only [isNumeric, h, Bool.true_or]

theorem dropSign_mem {s : Points} {c : Nat} (h : c ∈ s) :
    c ∈ dropSign s ∨ isNumeric c = true := by
  cases s with
  | nil => cases h
  | cons d s =>
      by_cases hsign : d = 43 ∨ d = 45
      · rw [dropSign, if_pos hsign]
        rcases List.mem_cons.mp h with heq | h
        · rw [heq]
          rcases hsign with hplus | hminus
          · rw [hplus]
            exact Or.inr (by decide)
          · rw [hminus]
            exact Or.inr (by decide)
        · exact Or.inl h
      · rw [dropSign, if_neg hsign]
        exact Or.inl h

theorem isExponent_mem {s : Points} {c : Nat} (h : isExponent s = true)
    (hc : c ∈ s) : isNumeric c = true := by
  cases s with
  | nil => cases hc
  | cons d s =>
      simp only [isExponent, Bool.and_eq_true, decide_eq_true_eq,
        List.all_eq_true] at h
      rcases List.mem_cons.mp hc with rfl | hc
      · rcases h.1.1 with rfl | rfl
        · decide
        · decide
      · rcases dropSign_mem hc with hc | hnumeric
        · exact isNumeric_of_isDigit (h.2 c hc)
        · exact hnumeric

theorem splitFraction_mem {s : Points} {c : Nat}
    (h : isExponent (splitFraction s).2 = true) (hc : c ∈ s) :
    isNumeric c = true := by
  cases s with
  | nil => cases hc
  | cons d s =>
      by_cases hd : d = 46
      · rw [splitFraction, if_pos hd] at h
        rcases List.mem_cons.mp hc with heq | hc
        · rw [heq, hd]
          decide
        · rw [← @List.takeWhile_append_dropWhile _ isDigit s] at hc
          rcases List.mem_append.mp hc with hfraction | hc
          · exact isNumeric_of_isDigit (List.mem_takeWhile_imp hfraction)
          · exact isExponent_mem h hc
      · rw [splitFraction, if_neg hd] at h
        exact isExponent_mem h hc

theorem isDecimal_mem {s : Points} {c : Nat} (h : isDecimal s = true) (hc : c ∈ s) :
    isNumeric c = true := by
  rcases dropSign_mem hc with hc | hnumeric
  · rw [← @List.takeWhile_append_dropWhile _ isDigit (dropSign s)] at hc
    rcases List.mem_append.mp hc with hwhole | hc
    · exact isNumeric_of_isDigit (List.mem_takeWhile_imp hwhole)
    · exact splitFraction_mem (Bool.and_eq_true_iff.mp h).2 hc
  · exact hnumeric

theorem powershellLiteral_plain {v : Value} (h : v.Plain) (s : Points) :
    powershellLiteral (v.literal ++ 10 :: s) = some (v, 10 :: s) := by
  cases v with
  | text w =>
      rw [Value.literal, powershellQuoted, List.append_assoc, List.append_assoc,
        List.cons_append, List.nil_append, powershellLiteral, if_pos (by decide)]
      rw [List.cons_append, List.nil_append, singleQuoted_doubled h]
      rfl
  | bool b =>
      cases b with
      | true => rfl
      | false => rfl
  | number w =>
      have hmem := fun c hc => isDecimal_mem (c := c) h hc
      have hline : ∀ c ∈ w, decide (c ≠ 10) = true := by
        intro c hc
        refine decide_eq_true fun heq => ?_
        have hnumeric := hmem c hc
        rw [heq] at hnumeric
        exact absurd hnumeric (by decide)
      have htake : (w ++ 10 :: s).takeWhile (fun c => decide (c ≠ 10)) = w := by
        rw [List.takeWhile_append_of_pos hline,
          List.takeWhile_cons_of_neg (by decide), List.append_nil]
      have hdrop : (w ++ 10 :: s).dropWhile (fun c => decide (c ≠ 10)) = 10 :: s := by
        rw [List.dropWhile_append_of_pos hline,
          List.dropWhile_cons_of_neg (by decide)]
      cases w with
      | nil => cases (show isDecimal [] = true from h)
      | cons c w =>
          have hnumeric := hmem c List.mem_cons_self
          have hquote : ¬ isSingleQuote c = true := by
            intro hq
            simp only [isSingleQuote, Bool.or_eq_true, decide_eq_true_eq] at hq
            rcases hq with (((rfl | rfl) | rfl) | rfl) | rfl <;>
              exact absurd hnumeric (by decide)
          have hdollar : c ≠ 36 := by
            intro heq
            rw [heq] at hnumeric
            exact absurd hnumeric (by decide)
          show powershellLiteral (c :: (w ++ 10 :: s)) = _
          rw [powershellLiteral, if_neg hquote, if_neg hdollar, ← List.cons_append,
            htake, hdrop]
          exact if_pos h

theorem powershellBinding_plain {name : Points} {v : Value}
    (hname : ∀ a ∈ name, isWord a = true) (h : v.Plain) (s : Points) :
    powershellBinding (powershellText (name, v) ++ s) = some ((name, v), s) := by
  have htext : powershellText (name, v) ++ s = [36] ++ (name ++ 32 ::
      (points "= " ++ (v.literal ++ 10 :: s))) := by
    simp only [powershellText, List.append_assoc, List.cons_append, List.nil_append]
    rfl
  have hequals : expect (points " = ") (32 :: (points "= " ++ (v.literal ++ 10 :: s))) =
      some (v.literal ++ 10 :: s) := expect_append (points " = ") _
  have hend : expect [10] (10 :: s) = some s := expect_append [10] s
  rw [htext, powershellBinding, expect_append]
  simp only
  rw [dropWhile_name hname (by decide), takeWhile_name hname (by decide), hequals]
  simp only
  rw [powershellLiteral_plain h]
  simp only
  rw [hend]
  rfl

/-- How much of a text the literal of a value takes. -/
def Value.width : Value → Nat
  | .text s => s.length + s.countP isSingleQuote + 2
  | .bool true => 5
  | .bool false => 6
  | .number s => s.length

theorem takeWhile_dropWhile_length (p : Nat → Bool) (s : Points) :
    s.length = (s.takeWhile p).length + (s.dropWhile p).length := by
  rw [← List.length_append, List.takeWhile_append_dropWhile]

theorem powershellLiteral_spec {s t : Points} {v : Value}
    (h : powershellLiteral s = some (v, t)) :
    s.length = v.width + t.length ∧ ∀ w, v = .number w → isDecimal w = true := by
  unfold powershellLiteral at h
  split at h
  · cases h
  · next c s =>
      split at h
      · obtain ⟨⟨w, u⟩, hw, heq⟩ := Option.map_eq_some_iff.mp h
        cases heq
        have hlen := singleQuoted_length hw
        refine ⟨?_, fun _ heq => by cases heq⟩
        rw [List.length_cons, Value.width]
        omega
      · split at h
        · have hlen := takeWhile_dropWhile_length isWord s
          split at h
          · next htrue =>
              cases h
              refine ⟨?_, fun _ heq => by cases heq⟩
              rw [htrue] at hlen
              rw [List.length_cons, hlen]
              show 4 + _ + 1 = 5 + _
              omega
          · split at h
            · next hfalse =>
                cases h
                refine ⟨?_, fun _ heq => by cases heq⟩
                rw [hfalse] at hlen
                rw [List.length_cons, hlen]
                show 5 + _ + 1 = 6 + _
                omega
            · cases h
        · simp only at h
          split at h
          · next hdecimal =>
              cases h
              refine ⟨takeWhile_dropWhile_length _ _, fun w heq => ?_⟩
              cases heq
              exact hdecimal
          · cases h

def bindingWidth (b : Points × Value) : Nat := b.1.length + b.2.width + 5

theorem powershellBinding_spec {s t : Points} {b : Points × Value}
    (h : powershellBinding s = some (b, t)) :
    s.length = bindingWidth b + t.length ∧
      ∀ w, b.2 = .number w → isDecimal w = true := by
  unfold powershellBinding at h
  split at h
  · cases h
  · next s' hs =>
      simp only at h
      split at h
      · cases h
      · next u hu =>
          split at h
          · cases h
          · next value v hv =>
              obtain ⟨w, hw, heq⟩ := Option.map_eq_some_iff.mp h
              cases heq
              obtain ⟨hlen, hnumber⟩ := powershellLiteral_spec hv
              have hs := expect_length hs
              have hu := expect_length hu
              have hw := expect_length hw
              have hname := takeWhile_dropWhile_length isWord s'
              refine ⟨?_, hnumber⟩
              have hthree : (points " = ").length = 3 := rfl
              rw [hthree] at hu
              simp only [List.length_cons, List.length_nil] at hs hw
              rw [bindingWidth]
              simp only
              omega

/-- By how much a text is shorter than what would be read as it. -/
def Value.missing : Value → Nat
  | .text s => s.countP isTypographic
  | _ => 0

theorem doubled_length (s : Points) :
    (s.flatMap fun c => if c = 39 then [39, 39] else [c]).length +
      s.countP isTypographic = s.length + s.countP isSingleQuote := by
  induction s with
  | nil => rfl
  | cons c s ih =>
      rw [List.flatMap_cons, List.length_append, List.length_cons, List.countP_cons,
        List.countP_cons]
      by_cases hc : c = 39
      · rw [if_pos hc, hc]
        simp only [isTypographic, isSingleQuote, List.length_cons, List.length_nil]
        simp only [decide_true, Bool.true_or, ne_eq, not_true_eq_false, decide_false,
          Bool.and_false, Bool.false_eq_true, if_false, if_true]
        omega
      · have hsame : isTypographic c = isSingleQuote c := by
          rw [isTypographic, decide_eq_true hc, Bool.and_true]
        rw [if_neg hc, hsame, List.length_cons, List.length_nil]
        omega

theorem Value.literal_length (v : Value) :
    v.literal.length + v.missing = v.width := by
  cases v with
  | text s =>
      have hlen := doubled_length s
      simp only [Value.literal, powershellQuoted, List.length_append, List.length_cons,
        List.length_nil, Value.missing, Value.width]
      omega
  | bool b =>
      cases b with
      | true => rfl
      | false => rfl
  | number s => rfl

theorem powershellText_length (b : Points × Value) :
    (powershellText b).length + b.2.missing = bindingWidth b := by
  have hthree : (points " = ").length = 3 := rfl
  have hliteral := b.2.literal_length
  simp only [powershellText, List.length_append, hthree, List.length_cons,
    List.length_nil, bindingWidth]
  omega

/-- Assignments are read as they were written exactly when their values are
plain: a quotation mark too many shows in the lengths. -/
theorem powershell_reads_iff {bs : List (Points × Value)}
    (hnames : ∀ b ∈ bs, ∀ a ∈ b.1, isWord a = true) (s : Points) :
    readMany powershellBinding bs.length (bs.flatMap powershellText ++ s) =
      some (bs, s) ↔ ∀ b ∈ bs, b.2.Plain := by
  constructor
  · intro h
    have hlength := readMany_length (fun _ _ _ hr => (powershellBinding_spec hr).1) h
    have hnumber := readMany_all (fun _ _ _ hr => (powershellBinding_spec hr).2) h
    have hwidths : (bs.map bindingWidth).sum =
        (bs.flatMap powershellText).length + (bs.map fun b => b.2.missing).sum := by
      clear h hlength hnumber hnames
      induction bs with
      | nil => rfl
      | cons b bs ih =>
          rw [List.map_cons, List.sum_cons, List.flatMap_cons, List.length_append,
            List.map_cons, List.sum_cons, ih, ← powershellText_length b]
          omega
    rw [List.length_append] at hlength
    have hnone : (bs.map fun b => b.2.missing).sum = 0 := by omega
    intro b hb
    have hzero := List.sum_eq_zero_iff_forall_eq_nat.mp hnone b.2.missing
      (List.mem_map_of_mem hb)
    cases hv : b.2 with
    | text w =>
        rw [hv] at hzero
        exact fun c hc => Bool.eq_false_iff.mpr (List.countP_eq_zero.mp hzero c hc)
    | bool _ => trivial
    | number w => exact hnumber b hb w hv
  · intro h
    exact readMany_flatMap powershellText
      (fun b hb => powershellBinding_plain (hnames b hb) (h b hb)) s

/-- A POSIX shell reads assignments as they were written. -/
theorem posix_reads {bs : List (Points × Points)}
    (hnames : ∀ b ∈ bs, ∀ a ∈ b.1, isWord a = true) (s : Points) :
    readMany posixBinding bs.length (bs.flatMap posixText ++ s) = some (bs, s) :=
  readMany_flatMap posixText
    (fun b hb => posixBinding_text (hnames b hb) b.2) s

end NodeLink.Lib.ShellText
