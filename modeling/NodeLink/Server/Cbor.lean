import Mathlib
import NodeLink.Lib.Utf8

/-!
# CBOR

The decoder of `core/cbor.py`: definite lengths, bounded nesting and sizes, no
duplicate keys, and of the simple values the three singletons.
-/

namespace NodeLink.Server.Cbor

open Lib

def maxDepth : Nat := 16

def maxItems : Nat := 1024

def maxStringBytes : Nat := 64 * 1024

/-- A key of a dictionary. `True` and `False` are the keys 1 and 0. -/
inductive Key where
  | int (i : Int)
  | bytes (bs : Bytes)
  | text (s : List Char)
  deriving DecidableEq, Repr

inductive Value where
  | int (i : Int)
  | bytes (bs : Bytes)
  | text (s : List Char)
  | array (items : List Value)
  | map (members : List (Key × Value))
  | bool (b : Bool)
  | null

/-- The value as a number to compare with: `True == 1`. -/
def Value.asInt : Value → Option Int
  | .int i => some i
  | .bool b => some (if b then 1 else 0)
  | _ => none

def Value.asKey : Value → Option Key
  | .int i => some (.int i)
  | .bool b => some (.int (if b then 1 else 0))
  | .bytes bs => some (.bytes bs)
  | .text s => some (.text s)
  | _ => none

/-- `d.get(key)` -/
def get (members : List (Key × Value)) (key : Key) : Option Value :=
  (members.find? fun m => decide (m.1 = key)).map (·.2)

/-- `int.from_bytes(bs, "big")` -/
def unpackBig (bs : Bytes) : Nat := bs.foldl (fun n b => n * 256 + b.toNat) 0

/-- `_take` -/
def take (count : Nat) (data : Bytes) : Option (Bytes × Bytes) :=
  if data.length < count then none else some (data.take count, data.drop count)

/-- `_head`: the major type and its argument. -/
def head : Bytes → Option (Nat × Nat × Bytes)
  | [] => none
  | initial :: rest =>
    let major := initial.toNat / 32
    let info := initial.toNat % 32
    if info < 24 then some (major, info, rest)
    else if info < 28 then
      (take (2 ^ (info - 24)) rest).map fun chunk =>
        (major, unpackBig chunk.1, chunk.2)
    else none

/-- `count` items, one after the other. -/
def items (item : Bytes → Option (Value × Bytes)) :
    Nat → Bytes → Option (List Value × Bytes)
  | 0, data => some ([], data)
  | count + 1, data => do
    let (v, data) ← item data
    let (vs, data) ← items item count data
    return (v :: vs, data)

/-- `count` members, none under a key that is taken. -/
def members (item : Bytes → Option (Value × Bytes)) :
    Nat → List (Key × Value) → Bytes → Option (List (Key × Value) × Bytes)
  | 0, result, data => some (result, data)
  | count + 1, result, data => do
    let (k, data) ← item data
    let key ← k.asKey
    guard (result.all fun m => decide (m.1 ≠ key))
    let (v, data) ← item data
    members item count (result ++ [(key, v)]) data

/-- `decode_item`, with the levels it may still go down. -/
def decodeItem : Nat → Bytes → Option (Value × Bytes)
  | 0, _ => none
  | levels + 1, data => do
    let (major, argument, data) ← head data
    match major with
    | 0 => return (.int argument, data)
    | 1 => return (.int (-1 - argument), data)
    | 2 =>
      guard (argument ≤ maxStringBytes)
      let (bs, data) ← take argument data
      return (.bytes bs, data)
    | 3 =>
      guard (argument ≤ maxStringBytes)
      let (raw, data) ← take argument data
      let s ← readUtf8 raw
      return (.text s, data)
    | 4 =>
      guard (argument ≤ maxItems)
      let (vs, data) ← items (decodeItem levels) argument data
      return (.array vs, data)
    | 5 =>
      guard (argument ≤ maxItems)
      let (ms, data) ← members (decodeItem levels) argument [] data
      return (.map ms, data)
    | 7 =>
      match argument with
      | 20 => return (.bool false, data)
      | 21 => return (.bool true, data)
      | 22 => return (.null, data)
      | _ => none
    | _ => none

/-- `decode_prefix`: the leading item and the bytes it takes. -/
def decodePrefix (data : Bytes) : Option (Value × Nat) :=
  (decodeItem (maxDepth + 1) data).map fun r =>
    (r.1, data.length - r.2.length)

/-- `decode` -/
def decode (data : Bytes) : Option Value :=
  match decodePrefix data with
  | none => none
  | some (v, consumed) => if consumed = data.length then some v else none

end NodeLink.Server.Cbor
