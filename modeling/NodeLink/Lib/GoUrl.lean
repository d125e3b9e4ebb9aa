import Mathlib.Data.List.Basic

/-!
# `net/url.Parse`

The parts of a URL as Go's parser takes them apart, and what it refuses. A
byte that an escape spells is kept as the character of that number: what is
done with the parts asks for ASCII only.
-/

namespace NodeLink.Lib

structure GoUrl where
  scheme : String := ""
  isOpaque : Bool := false
  hasUser : Bool := false
  host : List Char := []
  path : List Char := []
  rawQuery : List Char := []
  fragment : List Char := []
  deriving DecidableEq, Repr

/-- `strings.Cut`: what stands before and after the first `c`. -/
def cut (c : Char) (s : List Char) : List Char × Option (List Char) :=
  match s.dropWhile (· ≠ c) with
  | [] => (s, none)
  | _ :: t => (s.takeWhile (· ≠ c), some t)

/-- The same at the last `c`. -/
def cutLast (c : Char) (s : List Char) : List Char × Option (List Char) :=
  match cut c s.reverse with
  | (t, none) => (t.reverse, none)
  | (t, some u) => (u.reverse, some t.reverse)

def unhex (c : Char) : Option Nat :=
  if '0' ≤ c ∧ c ≤ '9' then some (c.toNat - 48)
  else if 'a' ≤ c ∧ c ≤ 'f' then some (c.toNat - 87)
  else if 'A' ≤ c ∧ c ≤ 'F' then some (c.toNat - 55)
  else none

/-- What part of a URL is unescaped. -/
inductive UrlPart where
  | host
  | zone
  | other
  deriving DecidableEq

/-- `shouldEscape` in a host. -/
def escapedInHost (c : Char) : Bool :=
  !(c.isAlphanum || "-_.~!$&'()*+,;=:[]<>\"".toList.contains c)

/-- `unescape` -/
def urlUnescape (part : UrlPart) : List Char → Option (List Char)
  | [] => some []
  | '%' :: a :: b :: s =>
    match unhex a, unhex b with
    | some x, some y =>
      let v := Char.ofNat (16 * x + y)
      let percent := decide (x = 2 ∧ y = 5)
      if part = .host ∧ x < 8 ∧ percent = false then none
      else if part = .zone ∧ percent = false ∧ v ≠ ' ' ∧ escapedInHost v = true
      then none
      else (urlUnescape part s).map (v :: ·)
    | _, _ => none
  | '%' :: _ => none
  | c :: s =>
    if part ≠ .other ∧ c.toNat < 0x80 ∧ escapedInHost c = true then none
    else (urlUnescape part s).map (c :: ·)

def validOptionalPort : List Char → Bool
  | [] => true
  | c :: s => c == ':' && s.all Char.isDigit

/-- Where `%25` stands first. -/
def cutZone : List Char → Option (List Char × List Char)
  | [] => none
  | c :: s =>
    if "%25".toList.isPrefixOf (c :: s) then some ([], c :: s)
    else (cutZone s).map fun r => (c :: r.1, r.2)

def parseHost (host : List Char) : Option (List Char) :=
  if host.head? = some '[' then
    match cutLast ']' host with
    | (_, none) => none
    | (inner, some colonPort) =>
      if validOptionalPort colonPort = false then none
      else
        match cutZone inner with
        | some (address, zone) => do
          let host1 ← urlUnescape .host address
          let host2 ← urlUnescape .zone zone
          let host3 ← urlUnescape .host (']' :: colonPort)
          some (host1 ++ host2 ++ host3)
        | none => urlUnescape .host host
  else
    match cutLast ':' host with
    | (_, none) => urlUnescape .host host
    | (_, some port) =>
      if port.all Char.isDigit = false then none else urlUnescape .host host

/-- `validUserinfo` -/
def validUserinfo (s : List Char) : Bool :=
  s.all fun c => c.isAlphanum || "-._:~!$&'()*+,;=%@".toList.contains c

/-- `parseAuthority`: whether there is a user, and the host. -/
def parseAuthority (authority : List Char) : Option (Bool × List Char) :=
  match cutLast '@' authority with
  | (_, none) => (parseHost authority).map (false, ·)
  | (userinfo, some host) => do
    let host ← parseHost host
    if validUserinfo userinfo = false then none
    else do
      let _ ← urlUnescape .other userinfo
      some (true, host)

def isSchemeChar (c : Char) : Bool :=
  c.isAlphanum || c == '+' || c == '-' || c == '.'

/-- `getScheme`: no scheme is the empty one. -/
def getScheme (s : List Char) : Option (List Char × List Char) :=
  match s.head? with
  | none => some ([], s)
  | some first =>
    if first = ':' then none
    else if first.isAlpha = false then some ([], s)
    else
      match s.dropWhile isSchemeChar with
      | ':' :: rest => some (s.takeWhile isSchemeChar, rest)
      | _ => some ([], s)

def isControl (c : Char) : Bool := decide (c.toNat < 0x20 ∨ c.toNat = 0x7F)

/-- The path behind a scheme and a query, and the authority in front of it. -/
def parseRest (url : GoUrl) (rest : List Char) : Option GoUrl :=
  if "//".toList.isPrefixOf rest ∧
      (url.scheme ≠ "" ∨ "///".toList.isPrefixOf rest = false) then do
    let (authority, slash) := cut '/' (rest.drop 2)
    let (hasUser, host) ← parseAuthority authority
    let path ← urlUnescape .other ((slash.map ('/' :: ·)).getD [])
    some { url with hasUser := hasUser, host := host, path := path }
  else do
    let path ← urlUnescape .other rest
    some { url with path := path }

/-- `parse`, for a text without a fragment. -/
def parseUnfragmented (s : List Char) : Option GoUrl :=
  if s.any isControl = true then none
  else if s = ['*'] then some { path := ['*'] }
  else do
    let (scheme, rest) ← getScheme s
    let (rest, query) := cut '?' rest
    let url : GoUrl := {
      scheme := (String.ofList scheme).toLower, rawQuery := query.getD [] }
    if rest.head? = some '/' then parseRest url rest
    else if url.scheme ≠ "" then some { url with isOpaque := true }
    else if (cut '/' rest).1.contains ':' = true then none
    else parseRest url rest

/-- `url.Parse` -/
def parseUrl (raw : String) : Option GoUrl := do
  let (s, frag) := cut '#' raw.toList
  let url ← parseUnfragmented s
  let fragment ← urlUnescape .other (frag.getD [])
  some { url with fragment := fragment }

end NodeLink.Lib
