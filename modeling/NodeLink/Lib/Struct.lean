import Mathlib
import NodeLink.Lib.Utf8

/-!
# Records of little-endian numbers

`struct.pack` and `struct.unpack` for formats that begin with `<` and have only
unsigned fields: a format is the list of the widths of its fields, in bytes. A
signature of four bytes is a field like the others.
-/

namespace NodeLink.Lib

/-- A number in `width` bytes, the lowest first. -/
def packNat : Nat → Nat → Bytes
  | 0, _ => []
  | width + 1, n => UInt8.ofNat n :: packNat width (n / 256)

def unpackNat : Bytes → Nat
  | [] => 0
  | b :: bs => b.toNat + 256 * unpackNat bs

@[simp] theorem length_packNat (width n : Nat) :
    (packNat width n).length = width := by
  induction width generalizing n with
  | zero => rfl
  | succ width ih => rw [packNat, List.length_cons, ih]

theorem unpackNat_packNat {width n : Nat} (h : n < 256 ^ width) :
    unpackNat (packNat width n) = n := by
  induction width generalizing n with
  | zero =>
      rw [Nat.pow_zero] at h
      show 0 = n
      omega
  | succ width ih =>
      rw [Nat.pow_succ] at h
      have hrest : n / 256 < 256 ^ width := Nat.div_lt_of_lt_mul (by omega)
      have hbyte : (UInt8.ofNat n).toNat = n % 256 := UInt8.toNat_ofNat'
      rw [packNat, unpackNat, ih hrest, hbyte]
      omega

/-- The fields, each with its width. -/
def packFields (fields : List (Nat × Nat)) : Bytes :=
  fields.flatMap fun f => packNat f.1 f.2

/-- `struct.pack`, which refuses a number that does not fit its field. -/
def structPack (fields : List (Nat × Nat)) : Option Bytes :=
  if fields.all fun f => decide (f.2 < 256 ^ f.1) then some (packFields fields)
  else none

/-- `struct.unpack` -/
def structUnpack : List Nat → Bytes → List Nat
  | [], _ => []
  | width :: widths, bytes =>
    unpackNat (bytes.take width) :: structUnpack widths (bytes.drop width)

theorem length_packFields (fields : List (Nat × Nat)) :
    (packFields fields).length = (fields.map (·.1)).sum := by
  induction fields with
  | nil => rfl
  | cons f fields ih =>
      rw [packFields, List.flatMap_cons, List.length_append, length_packNat,
        List.map_cons, List.sum_cons, ← ih]
      rfl

/-- What is packed is read back, whatever follows it. -/
theorem structUnpack_structPack {fields : List (Nat × Nat)} {bytes : Bytes}
    (h : structPack fields = some bytes) (rest : Bytes) :
    structUnpack (fields.map (·.1)) (bytes ++ rest) = fields.map (·.2) := by
  unfold structPack at h
  split at h
  · next hfit =>
      rw [← Option.some.inj h]
      clear h
      induction fields with
      | nil => rfl
      | cons f fields ih =>
          rw [List.all_cons, Bool.and_eq_true, decide_eq_true_iff] at hfit
          have hsplit : packFields (f :: fields) ++ rest =
              packNat f.1 f.2 ++ (packFields fields ++ rest) := by
            rw [packFields, List.flatMap_cons, List.append_assoc]
            rfl
          rw [List.map_cons, List.map_cons, structUnpack, hsplit,
            List.take_left' (length_packNat f.1 f.2),
            List.drop_left' (length_packNat f.1 f.2), ih hfit.2,
            unpackNat_packNat hfit.1]
  · cases h

theorem packNat_unpackNat (bytes : Bytes) :
    packNat bytes.length (unpackNat bytes) = bytes := by
  induction bytes with
  | nil => rfl
  | cons b bytes ih =>
      have hb := b.toNat_lt
      have hbyte : UInt8.ofNat (b.toNat + 256 * unpackNat bytes) = b := by
        apply UInt8.toNat.inj
        rw [UInt8.toNat_ofNat']
        omega
      have hrest : (b.toNat + 256 * unpackNat bytes) / 256 =
          unpackNat bytes := by
        omega
      rw [List.length_cons, unpackNat, packNat, hbyte, hrest, ih]

theorem unpackNat_lt (bytes : Bytes) :
    unpackNat bytes < 256 ^ bytes.length := by
  induction bytes with
  | nil => exact Nat.one_pos
  | cons b bytes ih =>
      have hb := b.toNat_lt
      rw [List.length_cons, Nat.pow_succ, unpackNat]
      omega

/-- Bytes that read as these fields are the bytes that are packed. -/
theorem structPack_structUnpack (fields : List (Nat × Nat)) {bytes : Bytes}
    (hlength : (fields.map (·.1)).sum ≤ bytes.length)
    (h : structUnpack (fields.map (·.1)) bytes = fields.map (·.2)) :
    structPack fields = some (bytes.take (fields.map (·.1)).sum) := by
  have hpacked : (∀ f ∈ fields, f.2 < 256 ^ f.1) ∧
      packFields fields = bytes.take (fields.map (·.1)).sum := by
    induction fields generalizing bytes with
    | nil => exact ⟨nofun, rfl⟩
    | cons f fields ih =>
        rw [List.map_cons, List.sum_cons] at hlength
        rw [List.map_cons, List.map_cons, structUnpack] at h
        obtain ⟨hfirst, hrest⟩ := List.cons.inj h
        have hwidth : (bytes.take f.1).length = f.1 :=
          List.length_take_of_le (by omega)
        have hdrop : (fields.map (·.1)).sum ≤ (bytes.drop f.1).length := by
          rw [List.length_drop]
          omega
        obtain ⟨hfit, hbytes⟩ := ih hdrop hrest
        have hlt := unpackNat_lt (bytes.take f.1)
        have hback := packNat_unpackNat (bytes.take f.1)
        rw [hwidth, hfirst] at hlt hback
        refine ⟨List.forall_mem_cons.mpr ⟨hlt, hfit⟩, ?_⟩
        rw [packFields, List.flatMap_cons, hback, List.map_cons, List.sum_cons,
          List.take_add]
        exact congrArg _ hbytes
  have hall : (fields.all fun f => decide (f.2 < 256 ^ f.1)) = true :=
    List.all_eq_true.mpr fun f hf => decide_eq_true (hpacked.1 f hf)
  rw [structPack, if_pos hall, hpacked.2]

theorem length_structPack {fields : List (Nat × Nat)} {bytes : Bytes}
    (h : structPack fields = some bytes) :
    bytes.length = (fields.map (·.1)).sum := by
  unfold structPack at h
  split at h
  · rw [← Option.some.inj h, length_packFields]
  · cases h

end NodeLink.Lib
