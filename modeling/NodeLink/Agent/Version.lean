import Mathlib

/-!
# Agent build versions

`internal/selfupdate/version.go`: the versions the agent accepts and the
order it puts them in. Fields of the release are numbers of up to six
digits; prerelease identifiers are whatever stands between dots, read as
numbers by `strconv.Atoi` when they can be.
-/

namespace NodeLink.Agent

structure Version where
  major : Nat
  minor : Nat
  patch : Nat
  prerelease : List Char
  raw : String
  deriving DecidableEq, Repr

/-! ## Parsing -/

/-- `[0-9A-Za-z.-]` -/
def isPrereleaseChar (c : Char) : Bool := c.isAlphanum || c == '.' || c == '-'

/-- `(\d{1,6})`, where no digit may follow. -/
def readField (s : List Char) : Option (Nat × List Char) :=
  let digits := s.takeWhile Char.isDigit
  if 1 ≤ digits.length ∧ digits.length ≤ 6 then
    some (Nat.ofDigitChars 10 digits 0, s.dropWhile Char.isDigit)
  else none

def readDot : List Char → Option (List Char)
  | '.' :: s => some s
  | _ => none

/-- `(?:-([0-9A-Za-z.-]{1,64}))?$` -/
def readPrerelease : List Char → Option (List Char)
  | [] => some []
  | '-' :: s =>
    if 1 ≤ s.length ∧ s.length ≤ 64 ∧ s.all isPrereleaseChar = true then some s
    else none
  | _ => none

def parseVersion (raw : String) : Option Version := do
  let (major, s) ← readField raw.toList
  let s ← readDot s
  let (minor, s) ← readField s
  let s ← readDot s
  let (patch, s) ← readField s
  let prerelease ← readPrerelease s
  some ⟨major, minor, patch, prerelease, raw⟩

/-- A version the agent accepts, under the text it was read from. -/
def AgentVersion : Type := { v : Version // parseVersion v.raw = some v }

/-! ## Order -/

/-- `strconv.Atoi`, `int` having 64 bits. -/
def atoi (s : List Char) : Option Int :=
  let digits := if s.head? = some '+' ∨ s.head? = some '-' then s.tail else s
  if digits = [] ∨ digits.all Char.isDigit = false then none
  else
    let n : Int := Nat.ofDigitChars 10 digits 0
    let v := if s.head? = some '-' then -n else n
    if -(2 ^ 63) ≤ v ∧ v < 2 ^ 63 then some v else none

/-- The loop of `comparePrerelease` over the identifiers. -/
def compareIdentifiers : List (List Char) → List (List Char) → Ordering
  | [], [] => .eq
  | [], _ :: _ => .lt
  | _ :: _, [] => .gt
  | l :: left, r :: right =>
    if l = r then compareIdentifiers left right
    else
      match atoi l, atoi r with
      | some leftNum, some rightNum => if leftNum < rightNum then .lt else .gt
      -- numeric identifiers always have lower precedence than alphanumeric
      | some _, none => .lt
      | none, some _ => .gt
      | none, none => if l < r then .lt else .gt

def comparePrerelease (a b : List Char) : Ordering :=
  compareIdentifiers (a.splitOn '.') (b.splitOn '.')

/-- `Compare`, its -1, 0 and 1 as `lt`, `eq` and `gt`. -/
def Version.compare (a b : Version) : Ordering :=
  if a.major ≠ b.major then (if a.major < b.major then .lt else .gt)
  else if a.minor ≠ b.minor then (if a.minor < b.minor then .lt else .gt)
  else if a.patch ≠ b.patch then (if a.patch < b.patch then .lt else .gt)
  else if a.prerelease = b.prerelease then .eq
  else if a.prerelease = [] then .gt
  else if b.prerelease = [] then .lt
  else comparePrerelease a.prerelease b.prerelease

/-- What the order compares: everything but the text the version was read
from. -/
structure Version.Same (a b : Version) : Prop where
  major : a.major = b.major
  minor : a.minor = b.minor
  patch : a.patch = b.patch
  prerelease : a.prerelease = b.prerelease

/-- Two identifiers that are one number spelled in two ways. -/
def SameNumber (l r : List Char) : Prop :=
  l ≠ r ∧ ∃ n, atoi l = some n ∧ atoi r = some n

/-- Where two lists of identifiers differ first, one number is spelled in two
ways. -/
def TwinIdentifiers : List (List Char) → List (List Char) → Prop
  | l :: left, r :: right =>
    if l = r then TwinIdentifiers left right else SameNumber l r
  | _, _ => False

/-- Two versions of one release whose prereleases first differ in two
spellings of one number. -/
structure Twins (a b : Version) : Prop where
  major : a.major = b.major
  minor : a.minor = b.minor
  patch : a.patch = b.patch
  identifiers : TwinIdentifiers (a.prerelease.splitOn '.')
    (b.prerelease.splitOn '.')

end NodeLink.Agent
