import NodeLink.Lib.Utf8

/-!
# Standard base64

The padded standard alphabet, line breaks ignored, as lenient about the
unused low bits of the last group as common decoders are. What the encoder
writes the decoder reads back.
-/

namespace NodeLink.Lib

/-- The value of one letter. -/
def sextet (c : Char) : Option Nat :=
  let n := c.toNat
  if 65 ≤ n ∧ n ≤ 90 then some (n - 65)
  else if 97 ≤ n ∧ n ≤ 122 then some (n - 71)
  else if 48 ≤ n ∧ n ≤ 57 then some (n + 4)
  else if c = '+' then some 62
  else if c = '/' then some 63
  else none

/-- The bytes of a group of four letters; padding ends the text. -/
def decodeGroups : List Char → Option Bytes
  | [] => some []
  | a :: b :: c :: d :: rest =>
    match sextet a, sextet b with
    | some a, some b =>
      let b₀ := UInt8.ofNat (a * 4 + b / 16)
      if d = '=' then
        if rest ≠ [] then none
        else if c = '=' then some [b₀]
        else (sextet c).map fun c => [b₀, UInt8.ofNat (b % 16 * 16 + c / 4)]
      else
        match sextet c, sextet d with
        | some c, some d =>
          (decodeGroups rest).map fun bs => b₀ ::
            UInt8.ofNat (b % 16 * 16 + c / 4) :: UInt8.ofNat (c % 4 * 64 + d) :: bs
        | _, _ => none
    | _, _ => none
  | _ => none

/-- `base64.StdEncoding.DecodeString` -/
def decodeBase64 (s : String) : Option Bytes :=
  decodeGroups (s.toList.filter fun c => c != '\r' && c != '\n')

example : decodeBase64 "aGk/\nIQ==" = some [104, 105, 63, 33] := by decide

/-! ## Encoding -/

/-- The letter of a value. -/
def letter (n : Nat) : Char :=
  if n < 26 then Char.ofNat (n + 65)
  else if n < 52 then Char.ofNat (n + 71)
  else if n < 62 then Char.ofNat (n - 4)
  else if n = 62 then '+'
  else '/'

def encodeGroups : Bytes → List Char
  | [] => []
  | [a] => [letter (a.toNat / 4), letter (a.toNat % 4 * 16), '=', '=']
  | [a, b] =>
    [letter (a.toNat / 4), letter (a.toNat % 4 * 16 + b.toNat / 16),
      letter (b.toNat % 16 * 4), '=']
  | a :: b :: c :: rest =>
    letter (a.toNat / 4) :: letter (a.toNat % 4 * 16 + b.toNat / 16) ::
      letter (b.toNat % 16 * 4 + c.toNat / 64) :: letter (c.toNat % 64) ::
      encodeGroups rest

/-- `base64.b64encode` -/
def encodeBase64 (bs : Bytes) : String := String.ofList (encodeGroups bs)

theorem sextet_letter : ∀ n < 64, sextet (letter n) = some n := by decide

theorem letter_ne_pad : ∀ n < 64, letter n ≠ '=' := by decide

theorem byte_eq {a : UInt8} {n : Nat} (h : n = a.toNat) :
    UInt8.ofNat n = a := by
  rw [h]
  exact UInt8.ofNat_toNat

theorem decodeGroups_encodeGroups (bs : Bytes) :
    decodeGroups (encodeGroups bs) = some bs := by
  fun_induction encodeGroups bs with
  | case1 => rfl
  | case2 a =>
      have ha := a.toNat_lt
      rw [decodeGroups, sextet_letter _ (by omega), sextet_letter _ (by omega)]
      simp only [if_true, ne_eq, not_true_eq_false, if_false]
      rw [byte_eq (a := a) (by omega)]
  | case3 a b =>
      have ha := a.toNat_lt
      have hb := b.toNat_lt
      rw [decodeGroups, sextet_letter _ (by omega), sextet_letter _ (by omega)]
      simp only [if_true, ne_eq, not_true_eq_false, if_false]
      rw [if_neg (letter_ne_pad _ (by omega)), sextet_letter _ (by omega),
        Option.map_some, byte_eq (a := a) (by omega),
        byte_eq (a := b) (by omega)]
  | case4 a b c rest ih =>
      have ha := a.toNat_lt
      have hb := b.toNat_lt
      have hc := c.toNat_lt
      rw [decodeGroups, sextet_letter _ (by omega), sextet_letter _ (by omega)]
      simp only []
      rw [if_neg (letter_ne_pad _ (by omega)), sextet_letter _ (by omega),
        sextet_letter _ (by omega)]
      simp only []
      rw [ih, Option.map_some, byte_eq (a := a) (by omega),
        byte_eq (a := b) (by omega), byte_eq (a := c) (by omega)]

theorem letter_no_break : ∀ n < 64,
    (letter n != '\r' && letter n != '\n') = true := by decide

/-- The encoder writes no line break. -/
theorem encodeGroups_no_break (bs : Bytes) :
    ∀ c ∈ encodeGroups bs, (c != '\r' && c != '\n') = true := by
  fun_induction encodeGroups bs with
  | case1 => exact fun c hc => absurd hc List.not_mem_nil
  | case2 a =>
      have ha := a.toNat_lt
      intro c hc
      simp only [List.mem_cons, List.not_mem_nil, or_false] at hc
      rcases hc with rfl | rfl | rfl | rfl
      · exact letter_no_break _ (by omega)
      · exact letter_no_break _ (by omega)
      · rfl
      · rfl
  | case3 a b =>
      have ha := a.toNat_lt
      have hb := b.toNat_lt
      intro c hc
      simp only [List.mem_cons, List.not_mem_nil, or_false] at hc
      rcases hc with rfl | rfl | rfl | rfl
      · exact letter_no_break _ (by omega)
      · exact letter_no_break _ (by omega)
      · exact letter_no_break _ (by omega)
      · rfl
  | case4 a b c rest ih =>
      have ha := a.toNat_lt
      have hb := b.toNat_lt
      have hc := c.toNat_lt
      intro x hx
      simp only [List.mem_cons] at hx
      rcases hx with rfl | rfl | rfl | rfl | hx
      · exact letter_no_break _ (by omega)
      · exact letter_no_break _ (by omega)
      · exact letter_no_break _ (by omega)
      · exact letter_no_break _ (by omega)
      · exact ih x hx

/-- Decoding undoes encoding. -/
theorem decodeBase64_encodeBase64 (bs : Bytes) :
    decodeBase64 (encodeBase64 bs) = some bs := by
  rw [decodeBase64, encodeBase64, String.toList_ofList,
    List.filter_eq_self.mpr (encodeGroups_no_break bs),
    decodeGroups_encodeGroups]

/-! ## One spelling -/

theorem toNat_byte {n : Nat} (h : n < 256) : (UInt8.ofNat n).toNat = n :=
  UInt8.toNat_ofNat_of_lt' h

theorem letter_sextet {c : Char} {n : Nat} (h : sextet c = some n) :
    n < 64 ∧ letter n = c := by
  simp only [sextet] at h
  split at h
  · next hc =>
      obtain rfl := Option.some.inj h
      rw [letter, if_pos (by omega), Nat.sub_add_cancel hc.1, Char.ofNat_toNat]
      exact ⟨by omega, rfl⟩
  · split at h
    · next hc =>
        obtain rfl := Option.some.inj h
        rw [letter, if_neg (by omega), if_pos (by omega),
          Nat.sub_add_cancel (by omega), Char.ofNat_toNat]
        exact ⟨by omega, rfl⟩
    · split at h
      · next hc =>
          obtain rfl := Option.some.inj h
          rw [letter, if_neg (by omega), if_neg (by omega), if_pos (by omega),
            Nat.add_sub_cancel, Char.ofNat_toNat]
          exact ⟨by omega, rfl⟩
      · split at h
        · next hc =>
            obtain rfl := Option.some.inj h
            exact ⟨by decide, hc.symm⟩
        · split at h
          · next hc =>
              obtain rfl := Option.some.inj h
              exact ⟨by decide, hc.symm⟩
          · cases h

theorem letter_inj {m n : Nat} (hm : m < 64) (hn : n < 64) :
    letter m = letter n ↔ m = n := by
  constructor
  · intro h
    have hsextet := sextet_letter m hm
    rw [h, sextet_letter n hn] at hsextet
    exact (Option.some.inj hsextet).symm
  · exact congrArg letter

/-- What fills the last group up. -/
def padding (l : List Char) : List Char :=
  List.replicate ((4 - l.length % 4) % 4) '='

/-- The bits of the last letter that go into no byte. -/
def spareBits (l : List Char) : Nat :=
  match l.length % 4 with
  | 2 => (l.getLast?.bind sextet).getD 0 % 16
  | 3 => (l.getLast?.bind sextet).getD 0 % 4
  | _ => 0

theorem padding_group (a b c d : Char) (l : List Char) :
    padding (a :: b :: c :: d :: l) = padding l := by
  simp only [padding, List.length_cons, Nat.add_assoc, Nat.reduceAdd,
    Nat.add_mod_right]

theorem spareBits_group (a b c d : Char) (l : List Char) :
    spareBits (a :: b :: c :: d :: l) = spareBits l := by
  cases l with
  | nil => simp [spareBits]
  | cons e l =>
      simp only [spareBits, List.getLast?_cons_cons, List.length_cons,
        Nat.add_assoc, Nat.reduceAdd]
      rw [← Nat.add_assoc l.length 1 4, Nat.add_mod_right]

/-- Letters without padding are what the encoder writes for their bytes exactly
where no bit is spare. -/
theorem encodeGroups_padded_iff {l : List Char} {bs : Bytes}
    (hl : ∀ c ∈ l, c ≠ '=') (h : decodeGroups (l ++ padding l) = some bs) :
    encodeGroups bs = l ++ padding l ↔ spareBits l = 0 := by
  match l with
  | [] =>
      obtain rfl := Option.some.inj h
      exact iff_of_true rfl rfl
  | [a] =>
      change decodeGroups [a, '=', '=', '='] = some bs at h
      rw [decodeGroups, show sextet '=' = none by decide] at h
      cases ha : sextet a with
      | none => simp [ha] at h
      | some m => simp [ha] at h
  | [a, b] =>
      change decodeGroups [a, b, '=', '='] = some bs at h
      rw [decodeGroups] at h
      cases ha : sextet a with
      | none => simp [ha] at h
      | some m =>
          cases hb : sextet b with
          | none => simp [ha, hb] at h
          | some n =>
              obtain ⟨hm, rfl⟩ := letter_sextet ha
              obtain ⟨hn, rfl⟩ := letter_sextet hb
              rw [ha, hb] at h
              obtain rfl := Option.some.inj h
              change [letter _, letter _, '=', '='] = [letter m, letter n, '=', '=']
                ↔ (Option.getD (sextet (letter n)) 0) % 16 = 0
              rw [toNat_byte (by omega), hb, Option.getD_some,
                List.cons_eq_cons, List.cons_eq_cons,
                letter_inj (by omega) hm, letter_inj (by omega) hn]
              simp only [and_true]
              omega
  | [a, b, c] =>
      have hc : c ≠ '=' := hl c (by simp)
      change decodeGroups [a, b, c, '='] = some bs at h
      rw [decodeGroups] at h
      cases ha : sextet a with
      | none => simp [ha] at h
      | some m =>
          cases hb : sextet b with
          | none => simp [ha, hb] at h
          | some n =>
              cases hk : sextet c with
              | none => simp [ha, hb, hk, hc] at h
              | some k =>
                  obtain ⟨hm, rfl⟩ := letter_sextet ha
                  obtain ⟨hn, rfl⟩ := letter_sextet hb
                  obtain ⟨hk', rfl⟩ := letter_sextet hk
                  simp only [ha, hb, hk, hc, if_true, if_false, ne_eq,
                    not_true_eq_false, Option.map_some] at h
                  obtain rfl := Option.some.inj h
                  change [letter _, letter _, letter _, '='] =
                      [letter m, letter n, letter k, '=']
                    ↔ (Option.getD (sextet (letter k)) 0) % 4 = 0
                  rw [toNat_byte (by omega),
                    toNat_byte (by omega), hk, Option.getD_some,
                    List.cons_eq_cons, List.cons_eq_cons, List.cons_eq_cons,
                    letter_inj (by omega) hm, letter_inj (by omega) hn,
                    letter_inj (by omega) hk']
                  simp only [and_true]
                  omega
  | a :: b :: c :: d :: l =>
      have hd : d ≠ '=' := hl d (by simp)
      rw [padding_group] at h ⊢
      rw [spareBits_group]
      simp only [List.cons_append] at h ⊢
      rw [decodeGroups] at h
      cases ha : sextet a with
      | none => simp [ha] at h
      | some m =>
          cases hb : sextet b with
          | none => simp [ha, hb] at h
          | some n =>
              cases hk : sextet c with
              | none => simp [ha, hb, hk, hd] at h
              | some k =>
                  cases hj : sextet d with
                  | none => simp [ha, hb, hk, hj, hd] at h
                  | some j =>
                      obtain ⟨hm, rfl⟩ := letter_sextet ha
                      obtain ⟨hn, rfl⟩ := letter_sextet hb
                      obtain ⟨hk', rfl⟩ := letter_sextet hk
                      obtain ⟨hj', rfl⟩ := letter_sextet hj
                      simp only [ha, hb, hk, hj, hd, if_false] at h
                      obtain ⟨rest, hrest, rfl⟩ := Option.map_eq_some_iff.mp h
                      have hmore := encodeGroups_padded_iff
                        (fun c hc => hl c (by simp [hc])) hrest
                      rw [← hmore]
                      simp only [encodeGroups]
                      rw [toNat_byte (by omega),
                        toNat_byte (by omega),
                        toNat_byte (by omega),
                        List.cons_eq_cons, List.cons_eq_cons, List.cons_eq_cons,
                        List.cons_eq_cons, letter_inj (by omega) hm,
                        letter_inj (by omega) hn, letter_inj (by omega) hk',
                        letter_inj (by omega) hj']
                      constructor
                      · exact fun h => h.2.2.2.2
                      · exact fun h =>
                          ⟨by omega, by omega, by omega, by omega, h⟩

end NodeLink.Lib
