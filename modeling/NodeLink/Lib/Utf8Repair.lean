import NodeLink.Lib.Utf8

/-!
# What reading invalid bytes costs

A byte that starts no well-formed sequence is read as U+FFFD, which takes three
bytes to write. So a text that was read from bytes is longer than they were, by
two for each of these. All else is written as it was read; and U+0000 comes from
the byte 0 only.
-/

namespace NodeLink.Lib

/-! ## One character -/

/-- The replacement of one byte. -/
def isReplaced (r : Char × Nat) : Bool := decide (r = (replacementChar, 1))

/-- The bytes start with the character that is read from them. -/
def Faithful (bs : Bytes) (r : Char × Nat) : Prop :=
  String.utf8EncodeChar r.1 ++ bs.drop r.2 = bs ∧
    (String.utf8EncodeChar r.1).length = r.2

theorem tailBits_eq_some {b : UInt8} {n : Nat} (h : tailBits b = some n) :
    n < 64 ∧ b.toNat = n + 0x80 := by
  unfold tailBits at h
  split at h
  · next hb =>
      have hn := Option.some.inj h
      omega
  · cases h

theorem tailBits_ascii {b : UInt8} (h : b.toNat < 0x80) : tailBits b = none := by
  rw [tailBits, if_neg (by omega)]

theorem ofNat_val {n : Nat} (h : n.isValidChar) : (Char.ofNat n).val.toNat = n := by
  rw [Char.ofNat, dif_pos h]
  rfl

theorem ofNat_eq_byte {b : UInt8} {n : Nat} (h : n = b.toNat) : UInt8.ofNat n = b := by
  rw [h, UInt8.ofNat_toNat]

theorem faithful_one {b : UInt8} {t : Bytes} (h : b.toNat < 0x80) :
    Faithful (b :: t) (Char.ofNat b.toNat, 1) := by
  have hv := ofNat_val (n := b.toNat) (Or.inl (by omega))
  have hencode : String.utf8EncodeChar (Char.ofNat b.toNat) = [b] := by
    simp only [String.utf8EncodeChar, hv]
    rw [if_pos (by omega), ofNat_eq_byte rfl]
  rw [Faithful, hencode]
  exact ⟨rfl, rfl⟩

theorem scalarFrom_cases (bs : Bytes) {low n size : Nat}
    (h : n.isValidChar → low ≤ n → Faithful bs (Char.ofNat n, size)) :
    scalarFrom low n size = (replacementChar, 1) ∨
      Faithful bs (scalarFrom low n size) := by
  unfold scalarFrom
  split
  · next hn => exact Or.inr (h hn.2 hn.1)
  · exact Or.inl rfl

theorem faithful_two {b₀ b₁ : UInt8} {t : Bytes} {n₁ : Nat}
    (h₀ : 0xC0 ≤ b₀.toNat) (h₀' : b₀.toNat < 0xE0) (h₁ : tailBits b₁ = some n₁)
    (hv : ((b₀.toNat - 0xC0) * 64 + n₁).isValidChar)
    (hlow : 0x80 ≤ (b₀.toNat - 0xC0) * 64 + n₁) :
    Faithful (b₀ :: b₁ :: t) (Char.ofNat ((b₀.toNat - 0xC0) * 64 + n₁), 2) := by
  obtain ⟨hn₁, hb₁⟩ := tailBits_eq_some h₁
  have hencode : String.utf8EncodeChar (Char.ofNat ((b₀.toNat - 0xC0) * 64 + n₁)) =
      [b₀, b₁] := by
    simp only [String.utf8EncodeChar, ofNat_val hv]
    rw [if_neg (by omega), if_pos (by omega)]
    rw [ofNat_eq_byte (b := b₀) (by omega), ofNat_eq_byte (b := b₁) (by omega)]
  rw [Faithful, hencode]
  exact ⟨rfl, rfl⟩

theorem faithful_three {b₀ b₁ b₂ : UInt8} {t : Bytes} {n₁ n₂ : Nat}
    (h₀ : 0xE0 ≤ b₀.toNat) (h₀' : b₀.toNat < 0xF0) (h₁ : tailBits b₁ = some n₁)
    (h₂ : tailBits b₂ = some n₂)
    (hv : ((b₀.toNat - 0xE0) * 4096 + n₁ * 64 + n₂).isValidChar)
    (hlow : 0x800 ≤ (b₀.toNat - 0xE0) * 4096 + n₁ * 64 + n₂) :
    Faithful (b₀ :: b₁ :: b₂ :: t)
      (Char.ofNat ((b₀.toNat - 0xE0) * 4096 + n₁ * 64 + n₂), 3) := by
  obtain ⟨hn₁, hb₁⟩ := tailBits_eq_some h₁
  obtain ⟨hn₂, hb₂⟩ := tailBits_eq_some h₂
  have hencode : String.utf8EncodeChar
      (Char.ofNat ((b₀.toNat - 0xE0) * 4096 + n₁ * 64 + n₂)) = [b₀, b₁, b₂] := by
    simp only [String.utf8EncodeChar, ofNat_val hv]
    rw [if_neg (by omega), if_neg (by omega), if_pos (by omega)]
    rw [ofNat_eq_byte (b := b₀) (by omega), ofNat_eq_byte (b := b₁) (by omega),
      ofNat_eq_byte (b := b₂) (by omega)]
  rw [Faithful, hencode]
  exact ⟨rfl, rfl⟩

theorem faithful_four {b₀ b₁ b₂ b₃ : UInt8} {t : Bytes} {n₁ n₂ n₃ : Nat}
    (h₀ : 0xF0 ≤ b₀.toNat) (h₀' : b₀.toNat < 0xF8) (h₁ : tailBits b₁ = some n₁)
    (h₂ : tailBits b₂ = some n₂) (h₃ : tailBits b₃ = some n₃)
    (hv : ((b₀.toNat - 0xF0) * 262144 + n₁ * 4096 + n₂ * 64 + n₃).isValidChar)
    (hlow : 0x10000 ≤ (b₀.toNat - 0xF0) * 262144 + n₁ * 4096 + n₂ * 64 + n₃) :
    Faithful (b₀ :: b₁ :: b₂ :: b₃ :: t)
      (Char.ofNat ((b₀.toNat - 0xF0) * 262144 + n₁ * 4096 + n₂ * 64 + n₃), 4) := by
  obtain ⟨hn₁, hb₁⟩ := tailBits_eq_some h₁
  obtain ⟨hn₂, hb₂⟩ := tailBits_eq_some h₂
  obtain ⟨hn₃, hb₃⟩ := tailBits_eq_some h₃
  have hencode : String.utf8EncodeChar
      (Char.ofNat ((b₀.toNat - 0xF0) * 262144 + n₁ * 4096 + n₂ * 64 + n₃)) =
        [b₀, b₁, b₂, b₃] := by
    simp only [String.utf8EncodeChar, ofNat_val hv]
    rw [if_neg (by omega), if_neg (by omega), if_neg (by omega)]
    rw [ofNat_eq_byte (b := b₀) (by omega), ofNat_eq_byte (b := b₁) (by omega),
      ofNat_eq_byte (b := b₂) (by omega), ofNat_eq_byte (b := b₃) (by omega)]
  rw [Faithful, hencode]
  exact ⟨rfl, rfl⟩

/-- A character is the replacement of a byte that is not ASCII, or it is written
as it was read. -/
theorem decodeRune_cases (b : UInt8) (t : Bytes) :
    (decodeRune (b :: t) = (replacementChar, 1) ∧ 0x80 ≤ b.toNat) ∨
      Faithful (b :: t) (decodeRune (b :: t)) := by
  have replaced : ∀ {r}, 0x80 ≤ b.toNat → (r = (replacementChar, 1) ∨
      Faithful (b :: t) r) → (r = (replacementChar, 1) ∧ 0x80 ≤ b.toNat) ∨
        Faithful (b :: t) r :=
    fun hb hr => hr.imp_left fun heq => ⟨heq, hb⟩
  unfold decodeRune
  simp only
  split
  · next h => exact Or.inr (faithful_one h)
  refine replaced (by omega) ?_
  split
  · exact Or.inl rfl
  split
  · split
    · split
      · next h₁ =>
          exact scalarFrom_cases _ (faithful_two (by omega) (by omega) h₁)
      · exact Or.inl rfl
    · exact Or.inl rfl
  split
  · split
    · split
      · next h₁ h₂ =>
          exact scalarFrom_cases _ (faithful_three (by omega) (by omega) h₁ h₂)
      · exact Or.inl rfl
    · exact Or.inl rfl
  split
  · split
    · split
      · next h₁ h₂ h₃ =>
          exact scalarFrom_cases _ (faithful_four (by omega) (by omega) h₁ h₂ h₃)
      · exact Or.inl rfl
    · exact Or.inl rfl
  · exact Or.inl rfl

theorem isReplaced_of_faithful {b : UInt8} {t : Bytes}
    (h : Faithful (b :: t) (decodeRune (b :: t))) :
    isReplaced (decodeRune (b :: t)) = false := by
  refine decide_eq_false fun heq => ?_
  have hlen := h.2
  rw [heq] at hlen
  exact absurd hlen (by decide)

theorem decodeRune_pos (b : UInt8) (t : Bytes) : 0 < (decodeRune (b :: t)).2 := by
  rcases decodeRune_cases b t with ⟨h, _⟩ | h
  · rw [h]
    exact Nat.zero_lt_one
  · rw [← h.2]
    exact List.length_pos_of_ne_nil (utf8EncodeChar_ne_nil _)

theorem decodeRune_le (b : UInt8) (t : Bytes) :
    (decodeRune (b :: t)).2 ≤ (b :: t).length := by
  rcases decodeRune_cases b t with ⟨h, _⟩ | h
  · rw [h, List.length_cons]
    omega
  · have hlen := congrArg List.length h.1
    rw [List.length_append, h.2] at hlen
    omega

/-- What is read does not depend on what comes after, unless it may go on. -/
theorem decodeRune_append (b : UInt8) (t : Bytes) {c : UInt8} (hc : c.toNat < 0x80)
    (u : Bytes) : decodeRune (b :: t ++ c :: u) = decodeRune (b :: t) := by
  have htail := tailBits_ascii hc
  match t with
  | [] =>
    cases u with
    | nil => simp [decodeRune, htail]
    | cons d u =>
        cases u with
        | nil => simp [decodeRune, htail]
        | cons e u => simp [decodeRune, htail]
  | [b₁] =>
    cases u with
    | nil => simp [decodeRune, htail]
    | cons d u => simp [decodeRune, htail]
  | [b₁, b₂] => simp [decodeRune, htail]
  | b₁ :: b₂ :: b₃ :: t => simp [decodeRune]

/-! ## Texts -/

/-- `replacedBytes` with a bound on the characters read. -/
def replacedRunes : Nat → Bytes → Nat
  | 0, _ => 0
  | _ + 1, [] => 0
  | n + 1, b :: t =>
    let r := decodeRune (b :: t)
    (if isReplaced r then 1 else 0) + replacedRunes n ((b :: t).drop r.2)

/-- How many bytes are read as U+FFFD, each for itself. -/
def replacedBytes (bs : Bytes) : Nat := replacedRunes bs.length bs

theorem drop_decodeRune_lt (b : UInt8) (t : Bytes) :
    ((b :: t).drop (decodeRune (b :: t)).2).length < (b :: t).length := by
  have hpos := decodeRune_pos b t
  rw [List.length_drop, List.length_cons]
  omega

/-- Bytes are read one character after another. -/
theorem bytes_induction {P : Bytes → Prop} (nil : P [])
    (cons : ∀ b t, P ((b :: t).drop (decodeRune (b :: t)).2) → P (b :: t))
    (bs : Bytes) : P bs := by
  induction hn : bs.length using Nat.strongRecOn generalizing bs with
  | ind n ih =>
      cases bs with
      | nil => exact nil
      | cons b t =>
          refine cons b t (ih _ ?_ _ rfl)
          rw [← hn]
          exact drop_decodeRune_lt b t

theorem decodeRunes_enough {n : Nat} {bs : Bytes} (h : bs.length ≤ n) :
    decodeRunes n bs = decodeUtf8 bs := by
  rw [decodeUtf8]
  induction bs using bytes_induction generalizing n with
  | nil => cases n <;> rfl
  | cons b t ih =>
      have hlt := drop_decodeRune_lt b t
      obtain ⟨m, rfl⟩ : ∃ m, n = m + 1 := ⟨n - 1, by rw [List.length_cons] at h; omega⟩
      rw [List.length_cons] at h hlt
      rw [List.length_cons, decodeRunes, decodeRunes, ih (n := m) (by omega),
        ih (n := t.length) (by omega)]

theorem replacedRunes_enough {n : Nat} {bs : Bytes} (h : bs.length ≤ n) :
    replacedRunes n bs = replacedBytes bs := by
  rw [replacedBytes]
  induction bs using bytes_induction generalizing n with
  | nil => cases n <;> rfl
  | cons b t ih =>
      have hlt := drop_decodeRune_lt b t
      obtain ⟨m, rfl⟩ : ∃ m, n = m + 1 := ⟨n - 1, by rw [List.length_cons] at h; omega⟩
      rw [List.length_cons] at h hlt
      rw [List.length_cons, replacedRunes, replacedRunes, ih (n := m) (by omega),
        ih (n := t.length) (by omega)]

theorem decodeUtf8_cons (b : UInt8) (t : Bytes) : decodeUtf8 (b :: t) =
    (decodeRune (b :: t)).1 :: decodeUtf8 ((b :: t).drop (decodeRune (b :: t)).2) := by
  have hlt := drop_decodeRune_lt b t
  rw [List.length_cons] at hlt
  rw [decodeUtf8, List.length_cons, decodeRunes, decodeRunes_enough (by omega)]

theorem replacedBytes_cons (b : UInt8) (t : Bytes) : replacedBytes (b :: t) =
    (if isReplaced (decodeRune (b :: t)) then 1 else 0) +
      replacedBytes ((b :: t).drop (decodeRune (b :: t)).2) := by
  have hlt := drop_decodeRune_lt b t
  rw [List.length_cons] at hlt
  rw [replacedBytes, List.length_cons, replacedRunes, replacedRunes_enough (by omega)]

/-- The size of a text that was read from bytes. -/
theorem utf8_decodeUtf8_length (bs : Bytes) :
    (utf8 (decodeUtf8 bs)).length = bs.length + 2 * replacedBytes bs := by
  induction bs using bytes_induction with
  | nil => rfl
  | cons b t ih =>
      rw [decodeUtf8_cons, utf8_cons, List.length_append, ih, replacedBytes_cons]
      rcases decodeRune_cases b t with ⟨h, _⟩ | h
      · have hthree : (String.utf8EncodeChar replacementChar).length = 3 := by decide
        rw [h, isReplaced, decide_eq_true rfl, if_pos rfl, hthree, List.drop_succ_cons,
          List.drop_zero, List.length_cons]
        omega
      · have hlen := congrArg List.length h.1
        rw [List.length_append] at hlen
        rw [isReplaced_of_faithful h, if_neg Bool.false_ne_true]
        omega

theorem zero_mem_utf8EncodeChar {c : Char} (h : 0 ∈ String.utf8EncodeChar c) :
    c = Char.ofNat 0 := by
  have hmax : c.val.toNat < 0x110000 := by
    have hvalid := c.valid
    simp only [UInt32.isValidChar, Nat.isValidChar] at hvalid
    omega
  have hzero : ∀ {n : Nat}, 0 < n → n < 256 → (0 : UInt8) ≠ UInt8.ofNat n := by
    intro n hpos hlt heq
    have htoNat := congrArg UInt8.toNat heq
    rw [UInt8.toNat_ofNat', UInt8.toNat_zero] at htoNat
    omega
  refine Char.ext (UInt32.toNat_inj.mp ?_)
  rw [ofNat_val (by decide)]
  simp only [String.utf8EncodeChar] at h
  split at h
  · have heq := congrArg UInt8.toNat (List.mem_singleton.mp h)
    rw [UInt8.toNat_ofNat', UInt8.toNat_zero] at heq
    omega
  · exfalso
    split at h
    · simp only [List.mem_cons, List.not_mem_nil, or_false] at h
      rcases h with h | h
      · exact hzero (by omega) (by omega) h
      · exact hzero (by omega) (by omega) h
    · split at h
      · simp only [List.mem_cons, List.not_mem_nil, or_false] at h
        rcases h with h | h | h
        · exact hzero (by omega) (by omega) h
        · exact hzero (by omega) (by omega) h
        · exact hzero (by omega) (by omega) h
      · simp only [List.mem_cons, List.not_mem_nil, or_false] at h
        rcases h with h | h | h | h
        · exact hzero (by omega) (by omega) h
        · exact hzero (by omega) (by omega) h
        · exact hzero (by omega) (by omega) h
        · exact hzero (by omega) (by omega) h

/-- U+0000 is read from the byte 0, and only from it. -/
theorem nul_mem_decodeUtf8 (bs : Bytes) : Char.ofNat 0 ∈ decodeUtf8 bs ↔ 0 ∈ bs := by
  induction bs using bytes_induction with
  | nil => simp [decodeUtf8, decodeRunes]
  | cons b t ih =>
      rw [decodeUtf8_cons, List.mem_cons, ih]
      rcases decodeRune_cases b t with ⟨h, hb⟩ | h
      · rw [h, List.drop_succ_cons, List.drop_zero, List.mem_cons]
        have hchar : Char.ofNat 0 ≠ replacementChar := by decide
        have hbyte : 0 ≠ b := by
          rintro rfl
          exact absurd hb (by decide)
        simp only [hchar, hbyte, false_or]
      · have hfirst : Char.ofNat 0 = (decodeRune (b :: t)).1 ↔
            0 ∈ String.utf8EncodeChar (decodeRune (b :: t)).1 := by
          refine ⟨fun heq => ?_, fun hmem => (zero_mem_utf8EncodeChar hmem).symm⟩
          rw [← heq]
          decide
        rw [hfirst, ← List.mem_append, h.1]

/-- A text that is read up to an ASCII character is read in two parts. -/
theorem replacedBytes_append {bs : Bytes} {c : UInt8} (hc : c.toNat < 0x80) (u : Bytes) :
    replacedBytes (bs ++ c :: u) = replacedBytes bs + replacedBytes (c :: u) := by
  induction bs using bytes_induction with
  | nil => exact (Nat.zero_add _).symm
  | cons b t ih =>
      have happend := decodeRune_append b t hc u
      have hle := decodeRune_le b t
      rw [List.cons_append] at happend ⊢
      rw [replacedBytes_cons, happend, replacedBytes_cons b t, ← List.cons_append,
        List.drop_append_of_le_length hle, ih]
      omega

end NodeLink.Lib
