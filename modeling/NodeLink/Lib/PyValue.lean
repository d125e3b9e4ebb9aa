import NodeLink.Lib.Double
import NodeLink.Lib.Json

/-!
# Values `json.loads` makes, and `==` on them

A number is an `int` or a `float`. Numbers of either kind are equal when they
stand for the same number, `True` and `False` count as 1 and 0, and the order
of the keys is no part of a dictionary. A dictionary has each key once.
-/

namespace NodeLink.Lib

inductive PyNumber where
  | int (i : Int)
  | float (x : Double)
deriving DecidableEq, Repr

namespace PyNumber

def eq : PyNumber → PyNumber → Bool
  | .int i, .int j => decide (i = j)
  | .int i, .float x => x.isFinite && decide (x.value = i)
  | .float x, .int i => x.isFinite && decide (x.value = i)
  | .float x, .float y => x.same y

def ofBool (b : Bool) : PyNumber := .int (if b then 1 else 0)

end PyNumber

abbrev PyValue := Json String PyNumber

namespace PyValue

/-- `d.get(key)` -/
def get (members : List (String × PyValue)) (key : String) : Option PyValue :=
  (members.find? fun m => decide (m.1 = key)).map (·.2)

mutual

/-- `v == w` -/
def eq : PyValue → PyValue → Bool
  | .null, .null => true
  | .bool a, .bool b => a == b
  | .bool a, .num n => (PyNumber.ofBool a).eq n
  | .num m, .bool b => m.eq (PyNumber.ofBool b)
  | .num m, .num n => m.eq n
  | .str s, .str t => s == t
  | .arr vs, .arr ws => eqItems vs ws
  | .obj ms, .obj ns => decide (ms.length = ns.length) && eqMembers ms ns
  | _, _ => false

def eqItems : List PyValue → List PyValue → Bool
  | [], [] => true
  | v :: vs, w :: ws => eq v w && eqItems vs ws
  | _, _ => false

/-- Every member is one of the other dictionary, too. -/
def eqMembers : List (String × PyValue) → List (String × PyValue) → Bool
  | [], _ => true
  | (key, v) :: ms, ns =>
    (match get ns key with
      | some w => eq v w
      | none => false) && eqMembers ms ns

end

end PyValue

end NodeLink.Lib
