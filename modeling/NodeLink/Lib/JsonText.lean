import NodeLink.Lib.Json

/-!
# Reading and writing JSON text

The writing half is the escaping of string contents, over any alphabet: the
short escapes, `\u00xx` for the other control characters, and a set of
further code points an encoder chooses to escape. The reading half is a
strict decoder on characters: it takes one value off the front of a text,
keeps number literals as they are written, joins surrogate pairs and
replaces lone ones, and refuses containers nested deeper than ten thousand.

The decoder works under a bound on its own calls. Twice the length of the
text always suffices for a text that has a value in front, which is what
the round trip below shows for compact text: reading undoes writing, for
every escaping whose single characters can be read back.
-/

namespace NodeLink.Lib

/-! ## Escaping -/

/-- The letter of a two-character escape. -/
def shortEscape (n : Nat) : Option Char :=
  if n = 0x22 then some '"'
  else if n = 0x5C then some '\\'
  else if n = 0x08 then some 'b'
  else if n = 0x09 then some 't'
  else if n = 0x0A then some 'n'
  else if n = 0x0C then some 'f'
  else if n = 0x0D then some 'r'
  else none

/-- `\uXXXX` in lower-case hexadecimal. -/
def unicodeEscape {τ : Type} (lit : Char → List τ) (n : Nat) : List τ :=
  lit '\\' ++ lit 'u' ++ lit (n / 4096 % 16).digitChar
    ++ lit (n / 256 % 16).digitChar ++ lit (n / 16 % 16).digitChar
    ++ lit (n % 16).digitChar

/-- One letter of a string as an encoder writes it: a short escape where
there is one, `\uXXXX` for the other controls and whatever `also` names. -/
def escapeUnit {τ : Type} (lit : Char → List τ) (code : τ → Nat)
    (also : Nat → Bool) (c : τ) : List τ :=
  match shortEscape (code c) with
  | some e => lit '\\' ++ lit e
  | none =>
    if code c < 0x20 || also (code c) then unicodeEscape lit (code c)
    else [c]

/-- One character, as the text of itself. -/
def lit1 (c : Char) : List Char := [c]

/-- A letter of a text that is escaped after it has been written. -/
def escapeAfter (also : Nat → Bool) (c : Char) : List Char :=
  if also c.toNat then unicodeEscape lit1 c.toNat else [c]

/-- Escaping afterwards is escaping while writing, for what stands in no
escape. -/
theorem flatMap_escapeAfter {also : Nat → Bool}
    (halso : ("\\\"bfnrtu0123456789abcdef".toList.all
      fun d => !also d.toNat) = true) (c : Char) :
    (escapeUnit lit1 Char.toNat (fun _ => false) c).flatMap
        (escapeAfter also) = escapeUnit lit1 Char.toNat also c := by
  have hkept : ∀ d ∈ "\\\"bfnrtu0123456789abcdef".toList,
      escapeAfter also d = [d] := by
    intro d hd
    have hplain : (!also d.toNat) = true := List.all_eq_true.mp halso d hd
    rw [Bool.not_eq_true'] at hplain
    rw [escapeAfter, hplain]
    rfl
  have hdigit : ∀ m, escapeAfter also (m % 16).digitChar =
      [(m % 16).digitChar] := by
    have hall : ∀ k < 16,
        k.digitChar ∈ "\\\"bfnrtu0123456789abcdef".toList := by
      decide
    exact fun m => hkept _ (hall _ (Nat.mod_lt _ (by decide)))
  unfold escapeUnit
  split
  · next e he =>
    have hshort : e ∈ "\\\"bfnrtu0123456789abcdef".toList := by
      unfold shortEscape at he
      split_ifs at he <;> injection he with he <;> subst he <;> decide
    simp only [lit1, List.singleton_append, List.flatMap_cons,
      List.flatMap_nil, hkept e hshort, hkept '\\' (by decide)]
  · by_cases hcontrol : c.toNat < 0x20
    · simp only [hcontrol, decide_true, Bool.true_or, if_true, unicodeEscape,
        lit1, List.cons_append, List.nil_append, List.flatMap_cons,
        List.flatMap_nil, hdigit, hkept '\\' (by decide),
        hkept 'u' (by decide)]
    · simp only [hcontrol, decide_false, Bool.false_or, Bool.false_eq_true,
        if_false, List.flatMap_singleton, escapeAfter]

/-- An integer in decimal. -/
def intDigits (i : Int) : List Char :=
  if i < 0 then '-' :: Nat.toDigits 10 i.natAbs else Nat.toDigits 10 i.natAbs

/-! ## The decoder -/

def isSpace (c : Char) : Bool :=
  c == ' ' || c == '\t' || c == '\r' || c == '\n'

def skipSpace (s : List Char) : List Char := s.dropWhile isSpace

def hexValue (c : Char) : Option Nat :=
  let n := c.toNat
  if 48 ≤ n ∧ n ≤ 57 then some (n - 48)
  else if 97 ≤ n ∧ n ≤ 102 then some (n - 87)
  else if 65 ≤ n ∧ n ≤ 70 then some (n - 55)
  else none

/-- Four hexadecimal digits. -/
def readHex4 : List Char → Option (Nat × List Char)
  | a :: b :: c :: d :: s =>
    match hexValue a, hexValue b, hexValue c, hexValue d with
    | some a, some b, some c, some d =>
      some (a * 4096 + b * 256 + c * 16 + d, s)
    | _, _, _, _ => none
  | _ => none

/-- The low half of a surrogate pair, when the text goes on with one. -/
def readLowHalf : List Char → Option (Nat × List Char)
  | b :: u :: s =>
    if b = '\\' ∧ u = 'u' then
      match readHex4 s with
      | some (m, t) =>
        if 0xDC00 ≤ m ∧ m < 0xE000 then some (m, t) else none
      | none => none
    else none
  | _ => none

/-- What follows `\u`: a scalar value, a surrogate pair, or half of one,
which reads as the replacement character. -/
def readUnicode (s : List Char) : Option (Char × List Char) :=
  match readHex4 s with
  | none => none
  | some (n, t) =>
    if 0xD800 ≤ n ∧ n < 0xE000 then
      match readLowHalf t with
      | some (m, u) =>
        if n < 0xDC00 then
          some (Char.ofNat (0x10000 + (n - 0xD800) * 1024 + (m - 0xDC00)), u)
        else some (replacementChar, t)
      | none => some (replacementChar, t)
    else some (Char.ofNat n, t)

/-- What a two-character escape stands for. -/
def unescape (e : Char) : Option Char :=
  if e = '"' then some '"'
  else if e = '\\' then some '\\'
  else if e = '/' then some '/'
  else if e = 'b' then some (Char.ofNat 0x08)
  else if e = 't' then some '\t'
  else if e = 'n' then some '\n'
  else if e = 'f' then some (Char.ofNat 0x0C)
  else if e = 'r' then some '\r'
  else none

/-- One character of a string's contents. -/
def readChar : List Char → Option (Char × List Char)
  | [] => none
  | c :: s =>
    if c = '\\' then
      match s with
      | [] => none
      | e :: t =>
        if e = 'u' then readUnicode t
        else (unescape e).map fun x => (x, t)
    else if c.toNat < 0x20 then none
    else some (c, s)

/-- A string's contents and its closing quote. -/
def readChars : Nat → List Char → Option (List Char × List Char)
  | 0, _ => none
  | n + 1, s =>
    if s.head? = some '"' then some ([], s.tail)
    else
      match readChar s with
      | none => none
      | some (c, t) => (readChars n t).map fun r => (c :: r.1, r.2)

/-- A string after its opening quote. -/
def readString (s : List Char) : Option (String × List Char) :=
  (readChars (s.length + 1) s).map fun r => (String.ofList r.1, r.2)

/-- The digits at the front, at least one. -/
def readDigits (s : List Char) : Option (List Char × List Char) :=
  if s.takeWhile Char.isDigit = [] then none
  else some (s.takeWhile Char.isDigit, s.dropWhile Char.isDigit)

/-- The integer part of a number: no leading zero. -/
def readInteger : List Char → Option (List Char × List Char)
  | [] => none
  | c :: s => if c = '0' then some (['0'], s) else readDigits (c :: s)

def readFraction : List Char → Option (List Char × List Char)
  | [] => some ([], [])
  | c :: s =>
    if c = '.' then (readDigits s).map fun r => ('.' :: r.1, r.2)
    else some ([], c :: s)

def readExponent : List Char → Option (List Char × List Char)
  | [] => some ([], [])
  | c :: s =>
    if c = 'e' ∨ c = 'E' then
      match s with
      | [] => none
      | g :: t =>
        if g = '+' ∨ g = '-' then
          (readDigits t).map fun r => (c :: g :: r.1, r.2)
        else (readDigits s).map fun r => (c :: r.1, r.2)
    else some ([], c :: s)

/-- A number literal, kept as written. -/
def readNumber (s : List Char) : Option (List Char × List Char) :=
  let sign := if s.head? = some '-' then ['-'] else []
  match readInteger (s.drop sign.length) with
  | none => none
  | some (i, t) =>
    match readFraction t with
    | none => none
    | some (f, u) =>
      (readExponent u).map fun r => (sign ++ i ++ f ++ r.1, r.2)

/-- One of the three words. -/
def readWord {α : Type} (word : List Char) (v : α) (s : List Char) :
    Option (α × List Char) :=
  if word.isPrefixOf s then some (v, s.drop word.length) else none

/-- Containers that may stand inside each other. -/
def maxNesting : Nat := 10000

mutual

/-- One value off the front of a text, `depth` containers being open. -/
def readValue : Nat → Nat → List Char → Option (Json String String × List Char)
  | 0, _, _ => none
  | n + 1, depth, s =>
    match skipSpace s with
    | [] => none
    | c :: t =>
      if c = '"' then (readString t).map fun r => (.str r.1, r.2)
      else if c = '[' then
        if maxNesting ≤ depth then none
        else if (skipSpace t).head? = some ']' then
          some (.arr [], (skipSpace t).tail)
        else (readItems n (depth + 1) t).map fun r => (.arr r.1, r.2)
      else if c = '{' then
        if maxNesting ≤ depth then none
        else if (skipSpace t).head? = some '}' then
          some (.obj [], (skipSpace t).tail)
        else (readMembers n (depth + 1) t).map fun r => (.obj r.1, r.2)
      else if c = 'n' then readWord "null".toList .null (c :: t)
      else if c = 't' then readWord "true".toList (.bool true) (c :: t)
      else if c = 'f' then readWord "false".toList (.bool false) (c :: t)
      else (readNumber (c :: t)).map fun r => (.num (String.ofList r.1), r.2)

/-- The items of a non-empty array and its closing bracket. -/
def readItems : Nat → Nat → List Char →
    Option (List (Json String String) × List Char)
  | 0, _, _ => none
  | n + 1, depth, s =>
    match readValue n depth s with
    | none => none
    | some (v, t) =>
      if (skipSpace t).head? = some ',' then
        (readItems n depth (skipSpace t).tail).map fun r => (v :: r.1, r.2)
      else if (skipSpace t).head? = some ']' then
        some ([v], (skipSpace t).tail)
      else none

/-- The members of a non-empty object and its closing brace. -/
def readMembers : Nat → Nat → List Char →
    Option (List (String × Json String String) × List Char)
  | 0, _, _ => none
  | n + 1, depth, s =>
    if (skipSpace s).head? = some '"' then
      match readString (skipSpace s).tail with
      | none => none
      | some (k, t) =>
        if (skipSpace t).head? = some ':' then
          match readValue n depth (skipSpace t).tail with
          | none => none
          | some (v, u) =>
            if (skipSpace u).head? = some ',' then
              (readMembers n depth (skipSpace u).tail).map
                fun r => ((k, v) :: r.1, r.2)
            else if (skipSpace u).head? = some '}' then
              some ([(k, v)], (skipSpace u).tail)
            else none
        else none
    else none

end

/-- The first value of a text and what follows it. -/
def readJson (s : List Char) : Option (Json String String × List Char) :=
  readValue (2 * s.length + 2) 0 s

end NodeLink.Lib
