import NodeLink.Lib.JsonRoundTrip

/-!
# Bytes in hexadecimal

Bytes are written with two lower-case digits each. The reader takes either
case and skips white space between two bytes. Reading undoes writing, and
writing undoes reading on texts of lower-case digits.
-/

namespace NodeLink.Lib

def hexPair (b : UInt8) : List Char :=
  [(b.toNat / 16).digitChar, (b.toNat % 16).digitChar]

def toHex (bytes : Bytes) : String := String.ofList (bytes.flatMap hexPair)

/-- White space as the reader skips it. -/
def hexSpace (c : Char) : Bool := isSpace c || c == '\x0b' || c == '\x0c'

def readHex : List Char → Option Bytes
  | [] => some []
  | [c] => if hexSpace c then some [] else none
  | c :: d :: rest =>
    if hexSpace c then readHex (d :: rest)
    else
      match hexValue c, hexValue d, readHex rest with
      | some high, some low, some bytes =>
        some (UInt8.ofNat (16 * high + low) :: bytes)
      | _, _, _ => none

def fromHex (s : String) : Option Bytes := readHex s.toList

/-! ## Round trips -/

theorem not_hexSpace_digitChar :
    ∀ n < 16, hexSpace (Nat.digitChar n) = false := by
  decide

theorem readHex_pair (b : UInt8) {rest : List Char} {bytes : Bytes}
    (h : readHex rest = some bytes) :
    readHex (hexPair b ++ rest) = some (b :: bytes) := by
  have hb : b.toNat < 256 := b.toNat_lt
  have hhigh : b.toNat / 16 < 16 := by omega
  have hlow : b.toNat % 16 < 16 := Nat.mod_lt _ (by omega)
  have hbyte : UInt8.ofNat (16 * (b.toNat / 16) + b.toNat % 16) = b := by
    rw [Nat.div_add_mod]
    exact UInt8.ofNat_toNat
  show readHex ((b.toNat / 16).digitChar :: (b.toNat % 16).digitChar :: rest) = _
  rw [readHex, not_hexSpace_digitChar _ hhigh, hexValue_digitChar _ hhigh,
    hexValue_digitChar _ hlow, h]
  simp only [Bool.false_eq_true, if_false]
  rw [hbyte]

theorem readHex_flatMap (bytes : Bytes) :
    readHex (bytes.flatMap hexPair) = some bytes := by
  induction bytes with
  | nil => rfl
  | cons b bytes ih =>
      rw [List.flatMap_cons]
      exact readHex_pair b ih

theorem fromHex_toHex (bytes : Bytes) : fromHex (toHex bytes) = some bytes := by
  rw [fromHex, toHex, String.toList_ofList]
  exact readHex_flatMap bytes

theorem toHex_injective : Function.Injective toHex := by
  intro a b h
  have hread := congrArg fromHex h
  rw [fromHex_toHex, fromHex_toHex] at hread
  exact Option.some.inj hread

theorem length_toHex (bytes : Bytes) :
    (toHex bytes).toList.length = 2 * bytes.length := by
  rw [toHex, String.toList_ofList]
  induction bytes with
  | nil => rfl
  | cons b bytes ih =>
      rw [List.flatMap_cons, List.length_append, ih, List.length_cons]
      show 2 + 2 * bytes.length = _
      omega

/-! ## Texts of lower-case digits -/

def lowerHexDigits : List Char :=
  ['0', '1', '2', '3', '4', '5', '6', '7', '8', '9', 'a', 'b', 'c', 'd', 'e',
    'f']

theorem hexValue_lower : ∀ c ∈ lowerHexDigits,
    hexSpace c = false ∧ ∃ n < 16, hexValue c = some n ∧ n.digitChar = c := by
  intro c hc
  have hall : lowerHexDigits.all (fun c => !hexSpace c &&
      (List.range 16).any fun n => hexValue c == some n && n.digitChar == c) =
        true := by decide
  have h := List.all_eq_true.mp hall c hc
  simpa using h

theorem digitChar_lower : ∀ n < 16, Nat.digitChar n ∈ lowerHexDigits := by
  decide

theorem hexPair_ofNat {high low : Nat} (hhigh : high < 16) (hlow : low < 16) :
    hexPair (UInt8.ofNat (16 * high + low)) = [high.digitChar, low.digitChar] := by
  have hbyte : (UInt8.ofNat (16 * high + low)).toNat = 16 * high + low := by
    rw [UInt8.toNat_ofNat']
    omega
  have hdiv : (16 * high + low) / 16 = high := by omega
  have hmod : (16 * high + low) % 16 = low := by omega
  rw [hexPair, hbyte, hdiv, hmod]

/-- What is read of an even number of lower-case digits is written as they
stand. -/
theorem readHex_lower {text : List Char} (hlower : ∀ c ∈ text, c ∈ lowerHexDigits)
    {n : Nat} (hlen : text.length = 2 * n) :
    ∃ bytes, readHex text = some bytes ∧ bytes.length = n ∧
      bytes.flatMap hexPair = text := by
  induction n generalizing text with
  | zero =>
      obtain rfl := List.length_eq_zero_iff.mp hlen
      exact ⟨[], rfl, rfl, rfl⟩
  | succ n ih =>
      match text, hlen with
      | c :: d :: rest, hlen =>
          obtain ⟨hspace, high, hhigh, hcval, hc⟩ := hexValue_lower c
            (hlower c List.mem_cons_self)
          obtain ⟨-, low, hlow, hdval, hd⟩ := hexValue_lower d
            (hlower d (List.mem_cons_of_mem _ List.mem_cons_self))
          obtain ⟨bytes, hread, hbytes, hwrite⟩ := @ih rest
            (fun e he => hlower e (List.mem_cons_of_mem _
              (List.mem_cons_of_mem _ he)))
            (by simp only [List.length_cons] at hlen; omega)
          refine ⟨UInt8.ofNat (16 * high + low) :: bytes, ?_, ?_, ?_⟩
          · rw [readHex, hspace, hcval, hdval, hread]
            rfl
          · rw [List.length_cons, hbytes]
          · rw [List.flatMap_cons, hwrite, hexPair_ofNat hhigh hlow, hc, hd]
            rfl

end NodeLink.Lib
