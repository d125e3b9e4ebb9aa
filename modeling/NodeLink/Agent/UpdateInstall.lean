import NodeLink.Agent.Verify
import NodeLink.Lib.Trim

/-!
# Installing updates, on the agent

`runUpdateInstall` of `service/runner.go` up to the installation, the targets
of `patching/install.go`, and which of the applicable updates the script of
`install_windows.go` picks. Unicode's case mapping and the script's way of
comparing texts are parameters.

A Go decoder finds a field by its name in any letter case, and a member that
comes later is read over what the earlier ones left.
-/

namespace NodeLink.Agent.UpdateInstall

open Lib

/-! ## Decoding the payload -/

/-- `foldRune` of `encoding/json`, as far as it bears on ASCII names. -/
def foldRune (c : Char) : Char :=
  if c.toNat = 0x17F then 'S'
  else if c.toNat = 0x212A then 'K'
  else if 'a' ≤ c ∧ c ≤ 'z' then Char.ofNat (c.toNat - 32)
  else c

/-- The member of this key is decoded into the field of this name. -/
def readsAs (name key : String) : Bool :=
  decide (key.toList.map foldRune = name.toList.map foldRune)

abbrev Members := List (String × Json String String)

/-- A field after all members of its name, or `none` where one cannot be
decoded into it. Fields do not meet, so each can be read by itself. -/
def readField {α : Type} (name : String) (decode : α → Json String String → Option α)
    (zero : α) (members : Members) : Option α :=
  (members.filter fun m => readsAs name m.1).foldlM (fun a m => decode a m.2) zero

def decodeBool (old : Bool) : Json String String → Option Bool
  | .null => some old
  | .bool b => some b
  | _ => none

def decodeInt (old : Int) : Json String String → Option Int
  | .null => some old
  | .num text => parseInt64 text
  | _ => none

def decodeString (old : String) : Json String String → Option String
  | .null => some old
  | .str s => some s
  | _ => none

/-- A slice: its memory, and how much of it is in use. -/
structure Slice where
  cells : List String := []
  used : Nat := 0

def Slice.items (s : Slice) : List String := s.cells.take s.used

/-- The items of an array into the memory from cell `i` on. -/
def decodeItems (cells : List String) :
    Nat → List (Json String String) → Option (List String)
  | _, [] => some cells
  | i, v :: vs => do
    let s ← decodeString (cells.getD i "") v
    decodeItems (cells.take i ++ s :: cells.drop (i + 1)) (i + 1) vs

def decodeSlice (old : Slice) : Json String String → Option Slice
  | .null => some {}
  | .arr [] => some {}
  | .arr vs => (decodeItems old.cells 0 vs).map fun cells => ⟨cells, vs.length⟩
  | _ => none

/-- The `reboot` block. -/
structure RebootInstruction where
  policy : String := ""
  delaySeconds : Int := 0
  requiresNoUser : Bool := false
  deriving DecidableEq, Repr

def decodeReboot (old : Option RebootInstruction) :
    Json String String → Option (Option RebootInstruction)
  | .null => some none
  | .obj members => do
    let policy ← readField "policy" decodeString (old.getD {}).policy members
    let delay ← readField "delay_seconds" decodeInt (old.getD {}).delaySeconds
      members
    let noUser ← readField "requires_no_user" decodeBool
      (old.getD {}).requiresNoUser members
    some (some ⟨policy, delay, noUser⟩)
  | _ => none

/-- The payload, as `runUpdateInstall` holds it. -/
structure InstallPayload where
  installAll : Bool
  kbIDs : List String
  targetKBs : List String
  updateIDs : List String
  maxAttempts : Int
  reboot : Option RebootInstruction
  deriving DecidableEq, Repr

/-- `json.Unmarshal` into the payload's struct. -/
def unmarshalPayload (members : Members) : Option InstallPayload := do
  let installAll ← readField "install_all" decodeBool false members
  let kbIDs ← readField "kb_ids" decodeSlice {} members
  let targetKBs ← readField "target_kbs" decodeSlice {} members
  let updateIDs ← readField "update_ids" decodeSlice {} members
  let maxAttempts ← readField "max_attempts" decodeInt 0 members
  let reboot ← readField "reboot" decodeReboot none members
  some ⟨installAll, kbIDs.items, targetKBs.items, updateIDs.items, maxAttempts,
    reboot⟩

/-! ## Targets -/

structure InstallTargets where
  all : Bool
  kbIDs : List String
  updateIDs : List String
  deriving DecidableEq, Repr

/-- The targets `runUpdateInstall` asks for. -/
def InstallPayload.targets (p : InstallPayload) : InstallTargets where
  all := p.installAll
  kbIDs := p.kbIDs ++ p.targetKBs
  updateIDs := p.updateIDs

def maxInstallTargets : Nat := 100

/-- `(?i)^KB[0-9]{4,10}$` -/
def matchesKBTarget (s : String) : Bool :=
  match s.toList with
  | k :: b :: digits =>
    decide (foldRune k = 'K') && decide (foldRune b = 'B')
      && digits.all Char.isDigit
      && decide (4 ≤ digits.length ∧ digits.length ≤ 10)
  | _ => false

def isHexDigit (c : Char) : Bool :=
  c.isDigit || decide ('a' ≤ c ∧ c ≤ 'f') || decide ('A' ≤ c ∧ c ≤ 'F')

/-- `(?i)^[0-9a-f]{8}-[0-9a-f]{4}-[0-9a-f]{4}-[0-9a-f]{4}-[0-9a-f]{12}$` -/
def matchesUpdateID (s : String) : Bool :=
  let groups := s.toList.splitOn '-'
  decide (groups.map List.length = [8, 4, 4, 4, 12])
    && groups.all (·.all isHexDigit)

section Targets

variable (toUpper toLower : String → String)

/-- A KB target as it is compared. -/
def normalKB (value : String) : String :=
  let kb := toUpper (trimSpace value)
  if kb ≠ "" ∧ ¬ "KB".toList <+: kb.toList then "KB" ++ kb else kb

/-- An update ID as it is compared. -/
def normalUpdateID (value : String) : String := toLower (trimSpace value)

/-- `NormalizeInstallTargets` -/
def normalizeInstallTargets (t : InstallTargets) : Option InstallTargets :=
  let kbs := t.kbIDs.map (normalKB toUpper)
  let ids := t.updateIDs.map (normalUpdateID toLower)
  if t.all ∧ (t.kbIDs ≠ [] ∨ t.updateIDs ≠ []) then none
  else if maxInstallTargets < t.kbIDs.length + t.updateIDs.length then none
  else if ¬ kbs.all matchesKBTarget ∨ ¬ ids.all matchesUpdateID then none
  else if ¬ t.all ∧ kbs = [] ∧ ids = [] then none
  else some ⟨t.all, kbs.reverse.dedup.reverse, ids.reverse.dedup.reverse⟩

end Targets

/-! ## The script -/

/-- What Windows Update tells of an applicable update. -/
structure ApplicableUpdate where
  updateID : String
  kbArticleIDs : List String
  deriving DecidableEq, Repr

/-- The script picks the update. `same` is how `-contains` compares. -/
def picks (same : String → String → Bool) (t : InstallTargets)
    (u : ApplicableUpdate) : Bool :=
  t.all || t.updateIDs.any (same · u.updateID)
    || u.kbArticleIDs.any fun kb => t.kbIDs.any fun target =>
      same target ("KB" ++ kb) || same target kb

/-- The agent's first attempt selects the update when it is sent this payload.
What a retry asks for is found by KB number again. -/
def selects (toUpper toLower : String → String) (same : String → String → Bool)
    (members : Members) (u : ApplicableUpdate) : Bool :=
  match unmarshalPayload members with
  | none => false
  | some payload =>
    match normalizeInstallTargets toUpper toLower payload.targets with
    | none => false
    | some targets => picks same targets u

end NodeLink.Agent.UpdateInstall
