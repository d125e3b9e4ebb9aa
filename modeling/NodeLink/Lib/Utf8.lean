import Mathlib.Data.List.Basic
import Mathlib.Data.Fin.Basic

/-!
# UTF-8 texts

Two languages meet on the wire. A text of one is a list of code points in
which lone surrogates may stand; a text of the other is a list of Unicode
scalar values. Both are written as UTF-8 bytes, and reading bytes back
replaces every byte that starts no well-formed sequence by U+FFFD.

What the developments above need is here: reading undoes writing, and the
byte order of two encoded texts is the code point order of the texts.
-/

namespace NodeLink.Lib

/-- A byte string. -/
abbrev Bytes := List UInt8

/-- The UTF-8 encoding of a text. -/
def utf8 (s : List Char) : Bytes := s.flatMap String.utf8EncodeChar

@[simp] theorem utf8_nil : utf8 [] = [] := rfl

@[simp] theorem utf8_cons (c : Char) (s : List Char) :
    utf8 (c :: s) = String.utf8EncodeChar c ++ utf8 s := by
  simp [utf8]

@[simp] theorem utf8_append (s t : List Char) :
    utf8 (s ++ t) = utf8 s ++ utf8 t := by
  simp [utf8]

/-- U+FFFD, what a reader puts for a byte it cannot use. -/
def replacementChar : Char := Char.ofNat 0xFFFD

/-- The payload of a continuation byte. -/
def tailBits (b : UInt8) : Option Nat :=
  if 0x80 ≤ b.toNat ∧ b.toNat ≤ 0xBF then some (b.toNat - 0x80) else none

/-- A scalar value at least `low`, or the one-byte replacement. -/
def scalarFrom (low n size : Nat) : Char × Nat :=
  if low ≤ n ∧ n.isValidChar then (Char.ofNat n, size)
  else (replacementChar, 1)

/-- The first character of a byte string and the bytes it takes; a byte
that starts no well-formed sequence is one replacement character. -/
def decodeRune : Bytes → Char × Nat
  | [] => (replacementChar, 0)
  | b₀ :: t =>
    let n₀ := b₀.toNat
    if n₀ < 0x80 then (Char.ofNat n₀, 1)
    else if n₀ < 0xC0 then (replacementChar, 1)
    else if n₀ < 0xE0 then
      match t with
      | b₁ :: _ =>
        match tailBits b₁ with
        | some n₁ => scalarFrom 0x80 ((n₀ - 0xC0) * 64 + n₁) 2
        | none => (replacementChar, 1)
      | _ => (replacementChar, 1)
    else if n₀ < 0xF0 then
      match t with
      | b₁ :: b₂ :: _ =>
        match tailBits b₁, tailBits b₂ with
        | some n₁, some n₂ =>
          scalarFrom 0x800 ((n₀ - 0xE0) * 4096 + n₁ * 64 + n₂) 3
        | _, _ => (replacementChar, 1)
      | _ => (replacementChar, 1)
    else if n₀ < 0xF8 then
      match t with
      | b₁ :: b₂ :: b₃ :: _ =>
        match tailBits b₁, tailBits b₂, tailBits b₃ with
        | some n₁, some n₂, some n₃ =>
          scalarFrom 0x10000
            ((n₀ - 0xF0) * 262144 + n₁ * 4096 + n₂ * 64 + n₃) 4
        | _, _, _ => (replacementChar, 1)
      | _ => (replacementChar, 1)
    else (replacementChar, 1)

/-- `decodeUtf8` with a bound on the characters read. -/
def decodeRunes : Nat → Bytes → List Char
  | 0, _ => []
  | _ + 1, [] => []
  | n + 1, b :: t =>
    let r := decodeRune (b :: t)
    r.1 :: decodeRunes n ((b :: t).drop r.2)

/-- The text of a byte string, invalid bytes replaced. -/
def decodeUtf8 (bs : Bytes) : List Char := decodeRunes bs.length bs

/-! ## Reading undoes writing -/

theorem tailBits_ofNat {n : Nat} :
    tailBits (UInt8.ofNat (n % 64 + 0x80)) = some (n % 64) := by
  have hb : n % 64 < 64 := Nat.mod_lt _ (by omega)
  have hn : (UInt8.ofNat (n % 64 + 0x80)).toNat = n % 64 + 0x80 := by
    rw [UInt8.toNat_ofNat']; omega
  rw [tailBits, hn, if_pos ⟨by omega, by omega⟩, Nat.add_sub_cancel]

theorem scalarFrom_val {low size : Nat} {c : Char}
    (h : low ≤ c.val.toNat) :
    scalarFrom low c.val.toNat size = (c, size) := by
  have hv : c.val.toNat.isValidChar := c.valid
  rw [scalarFrom, if_pos ⟨h, hv⟩]
  congr 1
  exact Char.ofNat_toNat c

theorem utf8EncodeChar_ne_nil (c : Char) : String.utf8EncodeChar c ≠ [] := by
  have h := String.length_utf8EncodeChar c
  have hp := Char.utf8Size_pos c
  intro h0
  rw [h0] at h
  simp at h
  omega

theorem decodeRune_utf8EncodeChar (c : Char) (rest : Bytes) :
    decodeRune (String.utf8EncodeChar c ++ rest) =
      (c, (String.utf8EncodeChar c).length) := by
  have hmax : c.val.toNat < 0x110000 := by
    have := c.valid
    simp only [UInt32.isValidChar, Nat.isValidChar] at this
    omega
  have lead : ∀ n, n < 256 → (UInt8.ofNat n).toNat = n := fun n hn => by
    rw [UInt8.toNat_ofNat']; omega
  simp only [String.utf8EncodeChar]
  split
  · next h1 =>
      simp only [List.cons_append, List.nil_append, decodeRune]
      rw [lead _ (by omega), if_pos (by omega)]
      exact Prod.ext (Char.ofNat_toNat c) rfl
  split
  · next h1 h2 =>
      simp only [List.cons_append, List.nil_append, decodeRune, tailBits_ofNat]
      rw [lead _ (by omega), if_neg (by omega), if_neg (by omega),
        if_pos (by omega)]
      rw [show (c.val.toNat / 64 % 32 + 192 - 192) * 64 + c.val.toNat % 64
        = c.val.toNat by omega]
      exact scalarFrom_val (by omega)
  split
  · next h1 h2 h3 =>
      simp only [List.cons_append, List.nil_append, decodeRune, tailBits_ofNat]
      rw [lead _ (by omega), if_neg (by omega), if_neg (by omega),
        if_neg (by omega), if_pos (by omega)]
      rw [show (c.val.toNat / 4096 % 16 + 224 - 224) * 4096
        + c.val.toNat / 64 % 64 * 64 + c.val.toNat % 64
        = c.val.toNat by omega]
      exact scalarFrom_val (by omega)
  · next h1 h2 h3 =>
      simp only [List.cons_append, List.nil_append, decodeRune, tailBits_ofNat]
      rw [lead _ (by omega), if_neg (by omega), if_neg (by omega),
        if_neg (by omega), if_neg (by omega), if_pos (by omega)]
      rw [show (c.val.toNat / 262144 % 8 + 240 - 240) * 262144
        + c.val.toNat / 4096 % 64 * 4096 + c.val.toNat / 64 % 64 * 64
        + c.val.toNat % 64 = c.val.toNat by omega]
      exact scalarFrom_val (by omega)

theorem decodeRunes_utf8 {n : Nat} {s : List Char} (h : s.length ≤ n) :
    decodeRunes n (utf8 s) = s := by
  induction s generalizing n with
  | nil => cases n <;> rfl
  | cons c s ih =>
      obtain ⟨m, rfl⟩ : ∃ m, n = m + 1 := ⟨n - 1, by simp at h; omega⟩
      rw [utf8_cons]
      have hd := decodeRune_utf8EncodeChar c (utf8 s)
      obtain ⟨b, t, hbt⟩ :=
        List.exists_cons_of_ne_nil (utf8EncodeChar_ne_nil c)
      rw [hbt, List.cons_append] at hd ⊢
      rw [decodeRunes]
      simp only [hd]
      rw [← List.cons_append, List.drop_left, ih (by simpa using h)]

theorem length_le_utf8 (s : List Char) : s.length ≤ (utf8 s).length := by
  induction s with
  | nil => simp
  | cons c s ih =>
      have := List.length_pos_of_ne_nil (utf8EncodeChar_ne_nil c)
      simp only [utf8_cons, List.length_append, List.length_cons]
      omega

@[simp] theorem decodeUtf8_utf8 (s : List Char) : decodeUtf8 (utf8 s) = s :=
  decodeRunes_utf8 (length_le_utf8 s)

theorem utf8_injective : Function.Injective utf8 := fun s t h => by
  rw [← decodeUtf8_utf8 s, h, decodeUtf8_utf8]

/-- The text of a byte string, if all of it is well formed. -/
def readUtf8 (bs : Bytes) : Option (List Char) :=
  if utf8 (decodeUtf8 bs) = bs then some (decodeUtf8 bs) else none

theorem readUtf8_utf8 (s : List Char) : readUtf8 (utf8 s) = some s := by
  rw [readUtf8, decodeUtf8_utf8, if_pos rfl]

/-! ## Lexicographic order -/

/-- Lexicographic comparison of two lists by a numeric key, `true` when the
first does not come after the second. -/
def lexLe {α : Type} (key : α → Nat) : List α → List α → Bool
  | [], _ => true
  | _ :: _, [] => false
  | a :: as, b :: bs =>
    key a < key b || (key a == key b && lexLe key as bs)

/-- Elements mapped with their keys kept compare as before. -/
theorem lexLe_map {α β : Type} {k : α → Nat} {k' : β → Nat} {f : α → β}
    {s t : List α} (hs : ∀ a ∈ s, k' (f a) = k a)
    (ht : ∀ a ∈ t, k' (f a) = k a) :
    lexLe k' (s.map f) (t.map f) = lexLe k s t := by
  induction s generalizing t with
  | nil => rfl
  | cons a s ih =>
      cases t with
      | nil => rfl
      | cons b t =>
          simp only [List.map_cons, lexLe]
          rw [hs a (by simp), ht b (by simp),
            ih (fun x hx => hs x (by simp [hx])) (fun x hx => ht x (by simp [hx]))]

theorem lexLe_append_left {α : Type} (key : α → Nat) (p s t : List α) :
    lexLe key (p ++ s) (p ++ t) = lexLe key s t := by
  induction p with
  | nil => rfl
  | cons a p ih => simp [lexLe, ih]

/-- `p` comes strictly before `q` at a position both have, so no
continuation changes the order. -/
def LexBefore {α : Type} (key : α → Nat) : List α → List α → Prop
  | a :: as, b :: bs => key a < key b ∨ (key a = key b ∧ LexBefore key as bs)
  | _, _ => False

theorem LexBefore.lexLe_append {α : Type} {key : α → Nat} {p q : List α}
    (h : LexBefore key p q) (s t : List α) :
    lexLe key (p ++ s) (q ++ t) = true ∧ lexLe key (q ++ t) (p ++ s) = false := by
  induction p generalizing q with
  | nil => exact h.elim
  | cons a p ih =>
      cases q with
      | nil => exact h.elim
      | cons b q =>
          simp only [List.cons_append, lexLe]
          rcases h with h | ⟨h, h'⟩
          · have hne : key a ≠ key b := by omega
            have hle : ¬ key b < key a := by omega
            simp [h, hle, hne.symm]
          · simp [h, ih h']

/-- Encoding each element keeps the lexicographic order when encodings of
different elements differ at a position both have, the right way round. -/
theorem lexLe_flatMap {α β : Type} {key : α → Nat} {key' : β → Nat}
    {e : α → List β} (he : ∀ a b, key a < key b → LexBefore key' (e a) (e b))
    (hinj : ∀ a b, key a = key b → a = b) (hne : ∀ a, e a ≠ [])
    (s t : List α) :
    lexLe key' (s.flatMap e) (t.flatMap e) = lexLe key s t := by
  induction s generalizing t with
  | nil => cases h : t.flatMap e <;> simp [lexLe]
  | cons a s ih =>
      cases t with
      | nil =>
          obtain ⟨b, r, hr⟩ := List.exists_cons_of_ne_nil (hne a)
          simp [hr, lexLe]
      | cons b t =>
          rw [List.flatMap_cons, List.flatMap_cons, lexLe]
          rcases Nat.lt_trichotomy (key a) (key b) with h | h | h
          · rw [((he a b h).lexLe_append _ _).1]
            simp [h]
          · obtain rfl := hinj a b h
            rw [lexLe_append_left, ih]
            simp
          · rw [((he b a h).lexLe_append _ _).2]
            have hne : key a ≠ key b := by omega
            have hle : ¬ key a < key b := by omega
            simp [hne, hle]

/-! ## Byte order is code point order -/

/-- Of two numbers in order, the quotients are in order or equal, and then
the remainders are in order. -/
theorem div_lt_or_mod_lt {x y : Nat} (k : Nat) (h : x < y) :
    x / k < y / k ∨ (x / k = y / k ∧ x % k < y % k) := by
  rcases Nat.lt_or_ge (x / k) (y / k) with hq | hq
  · exact Or.inl hq
  · have hqe : x / k = y / k :=
      Nat.le_antisymm (Nat.div_le_div_right (Nat.le_of_lt h)) hq
    refine Or.inr ⟨hqe, ?_⟩
    have hx := Nat.div_add_mod x k
    have hy := Nat.div_add_mod y k
    rw [hqe] at hx
    omega

theorem utf8EncodeChar_lexBefore {a b : Char} (h : a.val.toNat < b.val.toNat) :
    LexBefore UInt8.toNat (String.utf8EncodeChar a)
      (String.utf8EncodeChar b) := by
  have hmax : ∀ c : Char, c.val.toNat < 0x110000 := fun c => by
    have := c.valid
    simp only [UInt32.isValidChar, Nat.isValidChar] at this
    omega
  have ha := hmax a
  have hb := hmax b
  have lead : ∀ n, n < 256 → (UInt8.ofNat n).toNat = n := fun n hn => by
    rw [UInt8.toNat_ofNat']; omega
  simp only [String.utf8EncodeChar]
  generalize a.val.toNat = x at *
  generalize b.val.toNat = y at *
  -- the leading bytes of two lengths are in order whatever follows
  have h64 := div_lt_or_mod_lt 64 h
  have hxx : x / 4096 = x / 64 / 64 := (Nat.div_div_eq_div_mul x 64 64).symm
  have hyy : y / 4096 = y / 64 / 64 := (Nat.div_div_eq_div_mul y 64 64).symm
  have hxxx : x / 262144 = x / 64 / 64 / 64 := by
    rw [← hxx, Nat.div_div_eq_div_mul]
  have hyyy : y / 262144 = y / 64 / 64 / 64 := by
    rw [← hyy, Nat.div_div_eq_div_mul]
  rw [hxxx, hyyy, hxx, hyy]
  by_cases hx1 : x ≤ 0x7f
  · rw [if_pos hx1]
    split_ifs <;> (simp only [LexBefore]; rw [lead _ (by omega)]) <;>
      rw [lead _ (by omega)] <;> omega
  rw [if_neg hx1, if_neg (by omega : ¬ y ≤ 0x7f)]
  by_cases hx2 : x ≤ 0x7ff
  · rw [if_pos hx2]
    split_ifs <;> simp only [LexBefore] <;>
      repeat rw [lead _ (by omega)]
    all_goals omega
  rw [if_neg hx2, if_neg (by omega : ¬ y ≤ 0x7ff)]
  have h4096 : x / 64 = y / 64 ∨ x / 64 / 64 < y / 64 / 64 ∨
      (x / 64 / 64 = y / 64 / 64 ∧ x / 64 % 64 < y / 64 % 64) := by
    rcases h64 with h64 | h64
    · exact Or.inr (div_lt_or_mod_lt 64 h64)
    · exact Or.inl h64.1
  by_cases hx3 : x ≤ 0xffff
  · rw [if_pos hx3]
    split_ifs <;> simp only [LexBefore] <;>
      repeat rw [lead _ (by omega)]
    all_goals omega
  rw [if_neg hx3, if_neg (by omega : ¬ y ≤ 0xffff)]
  simp only [LexBefore]
  repeat rw [lead _ (by omega)]
  rcases h4096 with h4096 | h4096 | h4096
  · omega
  · have := div_lt_or_mod_lt 64 h4096
    omega
  · omega

theorem lexLe_utf8 (s t : List Char) :
    lexLe UInt8.toNat (utf8 s) (utf8 t) =
      lexLe Char.toNat s t :=
  lexLe_flatMap (fun _ _ h => utf8EncodeChar_lexBefore h)
    (fun _ _ h => Char.ext (UInt32.toNat_inj.mp h)) utf8EncodeChar_ne_nil s t

end NodeLink.Lib
