import NodeLink.Agent.Inventory
import NodeLink.Lib.CivilTime
import NodeLink.Lib.SortSlice
import NodeLink.Lib.StrMap
import NodeLink.Lib.Trim

/-!
# Installed software

`internal/inventory/software.go`: how the rows of the uninstall registry become
the entries of the section, and how these are cut to what the server takes. The
best rows are kept in a map, which is gone through in any order.
-/

namespace NodeLink.Agent.Software

open Lib
open Inventory (CollectedSection Value marshal)

structure RawSoftware where
  name : String
  version : String := ""
  publisher : String := ""
  installDate : String := ""
  identifier : String := ""
  source : String
  deriving DecidableEq, Repr

/-- An entry on the wire; an optional member that is not there is `none`. -/
structure SoftwareEntry where
  name : String
  architecture : String
  scope : String
  version : Option String
  publisher : Option String
  identifier : Option String
  installDate : Option String
  deriving DecidableEq, Repr

def sourceRank (source : String) : Nat :=
  if source = "machine_x64" then 3
  else if source = "machine_x86" then 2
  else if source = "user" then 1
  else 0

def architectureFor (source : String) : String :=
  if source = "machine_x64" then "x64"
  else if source = "machine_x86" then "x86"
  else "unknown"

def scopeFor (source : String) : String :=
  if source = "user" then "user" else "machine"

/-- A date of eight digits, in RFC 3339. -/
def parseInstallDate (value : String) : Option String :=
  match (trimSpace value).toList with
  | [y₁, y₂, y₃, y₄, m₁, m₂, d₁, d₂] =>
    let year := Nat.ofDigitChars 10 [y₁, y₂, y₃, y₄] 0
    let month := Nat.ofDigitChars 10 [m₁, m₂] 0
    let day := Nat.ofDigitChars 10 [d₁, d₂] 0
    if [y₁, y₂, y₃, y₄, m₁, m₂, d₁, d₂].all Char.isDigit ∧ 1 ≤ month ∧ month ≤ 12 ∧
        1 ≤ day ∧ day ≤ daysInMonth year month then
      some (String.ofList [y₁, y₂, y₃, y₄, '-', m₁, m₂, '-', d₁, d₂] ++ "T00:00:00Z")
    else none
  | _ => none

/-- `strings.Fields` -/
def fields (s : String) : List String :=
  ((s.toList.splitOnP goSpace).filter (· ≠ [])).map String.ofList

/-- An optional member, which is there where the text is not blank. -/
def optionalMember (value : String) : Option String :=
  if trimSpace value = "" then none else some (trimSpace value)

def entryOf (row : RawSoftware) : SoftwareEntry where
  name := row.name
  architecture := architectureFor row.source
  scope := scopeFor row.source
  version := optionalMember row.version
  publisher := optionalMember row.publisher
  identifier := optionalMember row.identifier
  installDate := parseInstallDate row.installDate

section Normalize

/-! `strings.ToLower` and `strings.EqualFold`. -/

variable (toLower : String → String) (equalFold : String → String → Bool)

def dedupKey (name version : String) : String :=
  toLower (String.intercalate " " (fields name)) ++ "\x00" ++
    toLower (trimSpace version)

/-- One row of the first loop. -/
def keepBest (best : StrMap RawSoftware) (row : RawSoftware) : StrMap RawSoftware :=
  if trimSpace row.name = "" then best
  else
    let row := { row with name := trimSpace row.name }
    let key := dedupKey toLower row.name row.version
    match best.lookup key with
    | none => best.insert key row
    | some existing =>
      if sourceRank existing.source ≥ sourceRank row.source then best
      else best.insert key row

def bestRows (rows : List RawSoftware) : StrMap RawSoftware :=
  rows.foldl (keepBest toLower) ∅

/-- The comparison of the sort. -/
def entryLess (left right : SoftwareEntry) : Bool :=
  if equalFold left.name right.name then
    decide (left.version.getD "" < right.version.getD "")
  else decide (toLower left.name < toLower right.name)

/-- `NormalizeSoftware`: the lists that it may return. The map is gone through
in any order, and what `sort.Slice` promises is all that is known of it. -/
def NormalizeSoftware (rows : List RawSoftware) (entries : List SoftwareEntry) :
    Prop :=
  ∃ kept : List RawSoftware,
    kept.Perm ((bestRows toLower rows).entries.map (·.2)) ∧
    SortSlice (entryLess toLower equalFold) (kept.map entryOf) entries

end Normalize

/-! ## The section -/

def maxSoftwareEntries : Nat := 1024

def maxSectionBytes : Nat := 256 * 1024

/-- The map an entry is. -/
def SoftwareEntry.toMap (entry : SoftwareEntry) : Value :=
  .obj ([("name", .str entry.name), ("architecture", .str entry.architecture),
      ("scope", .str entry.scope)] ++
    (entry.version.map fun s => ("version", Json.str s)).toList ++
    (entry.publisher.map fun s => ("publisher", Json.str s)).toList ++
    (entry.identifier.map fun s => ("identifier", Json.str s)).toList ++
    (entry.installDate.map fun s => ("install_date", Json.str s)).toList)

def entriesPayload (entries : List Value) : Value :=
  .obj [("entries", .arr entries)]

/-- The loop of `FitSoftwareEntries`; a payload of texts can be encoded. -/
def fitLoop (entries : List Value) (trimmed : Bool) : Value × Bool :=
  if entries.length = 0 then (entriesPayload entries, trimmed)
  else
    let encoded := (marshal (entriesPayload entries)).length
    if encoded ≤ maxSectionBytes then (entriesPayload entries, trimmed)
    else
      let keep := entries.length * maxSectionBytes / encoded
      fitLoop (entries.take
        (if keep ≥ entries.length then entries.length - 1 else keep)) true
termination_by entries.length
decreasing_by
  rw [List.length_take]
  split <;> omega

def fitSoftwareEntries (entries : List Value) : Value × Bool :=
  if entries.length > maxSoftwareEntries then
    fitLoop (entries.take maxSoftwareEntries) true
  else fitLoop entries false

def sectionOf (entries : List SoftwareEntry) (collectedAt : Int) :
    CollectedSection Value where
  sectionName := "installed_software"
  status :=
    if (fitSoftwareEntries (entries.map (·.toMap))).2 then "partial" else "ok"
  collectedAt := collectedAt
  payload := (fitSoftwareEntries (entries.map (·.toMap))).1

/-- `SoftwareSection`: the sections that it may return. -/
def SoftwareSection (toLower : String → String)
    (equalFold : String → String → Bool) (rows : List RawSoftware)
    (collectedAt : Int) (collected : CollectedSection Value) : Prop :=
  ∃ entries, NormalizeSoftware toLower equalFold rows entries ∧
    collected = sectionOf entries collectedAt

end NodeLink.Agent.Software
