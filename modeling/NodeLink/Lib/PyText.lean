import NodeLink.Lib.JsonText

/-!
# Texts of code points, and `json.dumps` on them

A text of the server's language is a list of code points, surrogates
included. Encoding it to UTF-8 fails when a surrogate stands in it; when it
succeeds the bytes are those of the characters it spells.

`dumps` is the compact serialization with non-ASCII text kept, members in
insertion order or sorted by key.
-/

namespace NodeLink.Lib

abbrev CodePoint := Fin 0x110000

abbrev PyStr := List CodePoint

theorem toNat_lt_codePoints (c : Char) : c.toNat < 0x110000 := by
  have h := c.valid
  simp only [UInt32.isValidChar, Nat.isValidChar] at h
  show c.val.toNat < 0x110000
  omega

def ofChar (c : Char) : CodePoint := ⟨c.toNat, toNat_lt_codePoints c⟩

/-- A text that is known to hold no surrogate. -/
def py (s : String) : PyStr := s.toList.map ofChar

def isScalar (c : CodePoint) : Bool := decide c.val.isValidChar

def toChar (c : CodePoint) : Char := Char.ofNat c.val

/-- `s.encode("utf-8")`, failing on a lone surrogate. -/
def encodeUtf8 (s : PyStr) : Option Bytes :=
  if s.all isScalar then some (utf8 (s.map toChar)) else none

/-- The string another program reads where `s` was sent as UTF-8. -/
def wireString (s : PyStr) : Option String :=
  if s.all isScalar then some (String.ofList (s.map toChar)) else none

/-- The text of a value's string on the wire, for a string that can be
sent. -/
def textOf (s : PyStr) : String := String.ofList (s.map toChar)

@[simp] theorem toChar_ofChar (c : Char) : toChar (ofChar c) = c :=
  Char.ofNat_toNat c

theorem isScalar_ofChar (c : Char) : isScalar (ofChar c) = true :=
  decide_eq_true c.valid

theorem toNat_toChar {c : CodePoint} (h : isScalar c = true) :
    (toChar c).toNat = c.val := by
  have hv : c.val.isValidChar := of_decide_eq_true h
  rw [toChar, Char.ofNat, dif_pos hv]
  rfl

theorem textOf_codes {s : PyStr} (h : s.all isScalar = true) :
    (textOf s).toList.map Char.toNat = s.map Fin.val := by
  rw [textOf, String.toList_ofList, List.map_map]
  refine List.map_congr_left ?_
  intro c hc
  exact toNat_toChar (List.all_eq_true.mp h c hc)

theorem textOf_injective {s t : PyStr} (hs : s.all isScalar = true)
    (ht : t.all isScalar = true) (h : textOf s = textOf t) : s = t := by
  have hcodes := congrArg (fun x : String => x.toList.map Char.toNat) h
  simp only [textOf_codes hs, textOf_codes ht] at hcodes
  exact List.map_injective_iff.mpr Fin.val_injective hcodes

@[simp] theorem textOf_py (s : String) : textOf (py s) = s := by
  simp [textOf, py, List.map_map, Function.comp_def]

theorem wireString_of_scalar {s : PyStr} (h : s.all isScalar = true) :
    wireString s = some (textOf s) := if_pos h

/-! ## `json.dumps` -/

/-- A number of a JSON document, floats kept as their text. -/
inductive PyNum where
  | int (i : Int)
  | float (repr : PyStr)
  deriving DecidableEq

abbrev PyJson := Json PyStr PyNum

/-- A letter of a string under `ensure_ascii=False`. -/
def pyEscape : CodePoint → PyStr :=
  escapeUnit (fun c => [ofChar c]) Fin.val (fun _ => false)

def pyNumber : PyNum → PyStr
  | .int i => (intDigits i).map ofChar
  | .float repr => repr

/-- Order of two strings, code point by code point. -/
def pyLe (s t : PyStr) : Prop := lexLe Fin.val s t = true

instance : DecidableRel pyLe := fun s t =>
  inferInstanceAs (Decidable (lexLe Fin.val s t = true))

/-- `json.dumps(v, separators=(",", ":"), ensure_ascii=False)`, with
`sort_keys` as given. -/
def dumps (sort_keys : Bool) (v : PyJson) : PyStr :=
  (if sort_keys then v.sortKeys pyLe else v).render (fun c => [ofChar c])
    (fun s => s.flatMap pyEscape) pyNumber

end NodeLink.Lib
