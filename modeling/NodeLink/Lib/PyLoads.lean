import NodeLink.Lib.JsonUnique
import NodeLink.Lib.PyValue

/-!
# `json.loads` and canonical JSON

Reading a text into Python values, and the compact text with sorted keys that
is kept as UTF-8. A number with a point or an exponent is a `float`; which
double its text stands for, and how a double is written, are parameters.

A value Python reads and cannot write back, such as `NaN` or half of a surrogate
pair, does not survive the way there and back here either.
-/

namespace NodeLink.Lib

/-- `float(text)` and `repr(x)`. -/
structure FloatText where
  read : String → Double
  repr : Double → String

namespace PyValue

/-- `int(text)` of digits, which may have a sign. Python refuses more than 4300
of them. -/
def readInt : List Char → Option Int
  | '-' :: digits =>
    if 4300 < digits.length then none
    else some (-(Nat.ofDigitChars 10 digits 0 : Nat))
  | digits =>
    if 4300 < digits.length then none
    else some (Nat.ofDigitChars 10 digits 0 : Nat)

def readNumeral (floats : FloatText) (text : String) : Option PyNumber :=
  if text.toList.any fun c => c == '.' || c == 'e' || c == 'E' then
    some (.float (floats.read text))
  else (readInt text.toList).map .int

/-- `d[key] = value` -/
def setMember (members : List (String × PyValue)) (member : String × PyValue) :
    List (String × PyValue) :=
  if members.any fun m => decide (m.1 = member.1) then
    members.map fun m => if m.1 = member.1 then member else m
  else members ++ [member]

/-- The value of a parsed text: the last of several members with one key
stays. -/
def ofText (floats : FloatText) : Json String String → Option PyValue :=
  Json.fold (some .null) (fun b => some (.bool b))
    (fun text => (readNumeral floats text).map .num) (fun s => some (.str s))
    (fun items => (items.mapM id).map .arr)
    (fun members =>
      (members.mapM fun m : String × Option PyValue =>
        m.2.map fun v => (m.1, v)).map fun members =>
          .obj (members.foldl setMember []))

/-- `json.loads` -/
def loads (floats : FloatText) (text : List Char) : Option PyValue :=
  match readJson text with
  | none => none
  | some (value, rest) =>
    if skipSpace rest = [] then ofText floats value else none

/-- Every `float` is finite. -/
def isFinite : PyValue → Bool :=
  Json.fold true (fun _ => true)
    (fun n => match n with
      | .int _ => true
      | .float x => x.isFinite)
    (fun _ => true) (fun items => items.all id)
    (fun members => members.all (·.2))

def numberText (floats : FloatText) : PyNumber → String
  | .int i => String.ofList (intDigits i)
  | .float x => floats.repr x

/-- What is escaped with `ensure_ascii=False`. -/
def plainEscape (c : Char) : List Char :=
  escapeUnit lit1 Char.toNat (fun _ => false) c

/-- `json.dumps(v, sort_keys=True, separators=(",", ":"), ensure_ascii=False,
allow_nan=False).encode("utf-8")` -/
def canonicalJson (floats : FloatText) (v : PyValue) : Option Bytes :=
  if v.isFinite then
    some (utf8 (jsonText plainEscape
      ((v.sortKeys codeLe).map id (numberText floats))))
  else none

end PyValue

end NodeLink.Lib
