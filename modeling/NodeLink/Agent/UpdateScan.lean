import NodeLink.Agent.Inventory
import NodeLink.Lib.Calendar
import NodeLink.Lib.StrMap

/-!
# The scan for updates

`internal/patching/scan.go`: how the rows of a scan become the section of the
endpoint's updates, and the summary the command answers with. A row is a map
with any members; the ones the server knows are kept, their texts cut to what
the server takes.
-/

namespace NodeLink.Agent.UpdateScan

open Lib
open Inventory (CollectedSection Value)

def sectionWindowsUpdates : String := "windows_updates"

def maxMissingUpdates : Nat := 512

def maxInstalledUpdates : Nat := 1024

def missingFields : List String :=
  ["title", "kb_id", "update_id", "classification", "product", "severity",
    "reboot_required", "is_downloaded", "support_url",
    "last_deployment_change", "priority_grade"]

def calculatePriorityGrade (severity classification : String)
    (rebootRequired : Bool) : String :=
  if severity = "Critical" ∨
      (classification = "Security Updates" ∧ rebootRequired = true) then
    "P1 - Critical"
  else if severity = "Important" ∨ classification = "Security Updates" ∨
      classification = "Critical Updates" then
    "P2 - High"
  else if severity = "Moderate" ∨ severity = "Low" ∨
      classification = "Updates" ∨ classification = "Service Packs" then
    "P3 - Medium"
  else "P4 - Low"

def installedFields : List String :=
  ["kb_id", "update_id", "revision_number", "title", "description",
    "installed_on", "installed_by", "client_application_id", "support_url",
    "result_code", "hresult"]

structure Summary where
  status : String
  scannedAt : String
  missingCount : Nat
  installedCount : Nat
  rebootRequired : Option Bool
  errorCode : String
  historyErrorCode : String
  truncated : Bool
  deriving DecidableEq, Repr

def maxIdentifierRunes : Nat := 128

def maxShortTextRunes : Nat := 255

def maxProseRunes : Nat := 2048

def fieldLimits : List (String × Nat) :=
  [("title", maxProseRunes), ("description", maxProseRunes),
    ("kb_id", maxIdentifierRunes), ("update_id", maxIdentifierRunes),
    ("hresult", maxIdentifierRunes), ("classification", maxShortTextRunes),
    ("product", maxShortTextRunes), ("severity", maxShortTextRunes),
    ("support_url", maxShortTextRunes), ("priority_grade", maxShortTextRunes),
    ("installed_by", maxShortTextRunes),
    ("client_application_id", maxShortTextRunes)]

/-- A text of no more bytes than the limit is not looked at any further. -/
def truncateRunes (value : String) (limit : Nat) : String :=
  if limit = 0 ∨ (utf8 value.toList).length ≤ limit then value
  else if value.length ≤ limit then value
  else String.ofList (value.toList.take limit)

/-- A row as the collector flattens it. -/
abbrev Row := StrMap Value

/-- A member that is kept, as it is kept. -/
def bounded (key : String) : Value → Value
  | .str s =>
    match fieldLimits.lookup key with
    | some limit => .str (truncateRunes s limit)
    | none => .str s
  | v => v

def isNull : Value → Bool
  | .null => true
  | _ => false

/-- The members a row keeps, without the ones that are `nil`. -/
def allowedMembers (row : Row) (fields : List String) :
    List (String × Value) :=
  fields.filterMap fun key =>
    match row.lookup key with
    | none => none
    | some v => if isNull v then none else some (key, bounded key v)

def allowlist (row : Row) (fields : List String) : Value :=
  .obj (allowedMembers row fields)

def nonEmptyString : Option Value → Bool
  | some (.str s) => s ≠ ""
  | _ => false

/-- A text member, or the empty text. -/
def stringMember (row : Row) (key : String) : String :=
  match row.lookup key with
  | some (.str s) => s
  | _ => ""

/-- A flag, or `false`. -/
def boolMember (row : Row) (key : String) : Bool :=
  match row.lookup key with
  | some (.bool b) => b
  | _ => false

/-- A row that has no grade is given one. -/
def graded (row : Row) : Row :=
  if (row.lookup "priority_grade").isSome then row
  else row.insert "priority_grade" (.str (calculatePriorityGrade
    (stringMember row "severity") (stringMember row "classification")
    (boolMember row "reboot_required")))

/-- A row without a title is left out. -/
def titled (row : Row) : Bool := nonEmptyString (row.lookup "title")

/-- `time.RFC3339`, of a time in UTC in the years to 9999. -/
def rfc3339 (t : Int) : String :=
  String.ofList ((padDigits 4 (stampOf t).year ++
    stampTail { stampOf t with micro := none }).map Char.ofNat)

def buildSection (missing installed : List Row) (scannedAt : Int)
    (rebootRequired : Option Bool) (errorCode historyErrorCode : String) :
    CollectedSection Value × Summary :=
  let normMissing := (missing.filter titled).map fun row =>
    allowlist (graded row) missingFields
  let normInstalled := installed.map fun row => allowlist row installedFields
  let truncated := decide (normMissing.length > maxMissingUpdates ∨
    normInstalled.length > maxInstalledUpdates)
  let normMissing := normMissing.take maxMissingUpdates
  let normInstalled := normInstalled.take maxInstalledUpdates
  let payload : Value := .obj ([("scanned_at", .str (rfc3339 scannedAt)),
      ("source", .str "windows_update_agent"), ("missing", .arr normMissing),
      ("installed", .arr normInstalled)] ++
    (rebootRequired.map fun b => ("reboot_required", Json.bool b)).toList ++
    (if errorCode ≠ "" then [("error_code", .str errorCode)] else []) ++
    (if historyErrorCode ≠ "" then
      [("history_error_code", .str historyErrorCode)] else []))
  let status :=
    if errorCode ≠ "" then "unavailable"
    else if historyErrorCode ≠ "" ∨ truncated = true then "partial"
    else "ok"
  ({ sectionName := sectionWindowsUpdates
     status := status
     collectedAt := scannedAt
     payload := payload },
    { status := status
      scannedAt := rfc3339 scannedAt
      missingCount := normMissing.length
      installedCount := normInstalled.length
      rebootRequired := rebootRequired
      errorCode := errorCode
      historyErrorCode := historyErrorCode
      truncated := truncated })

end NodeLink.Agent.UpdateScan
