import NodeLink.Lib.JsonText
import NodeLink.Server.Inventory

/-!
# What the server takes for a section

`server/app/schemas/inventory.py`: the canonical bytes of a payload, the models
of the software section and of the updates section, and the checks a reported
section goes through. A model is the list of its fields; any other member is
refused.
-/

namespace NodeLink.Server.InventorySchemas

open Lib

/-- A payload; its numbers are integers. -/
abbrev Value := Json String Int

def maxInventorySectionBytes : Nat := 256 * 1024

def maxSoftwareEntries : Nat := 1024

def maxMissingUpdates : Nat := 512

def maxInstalledUpdates : Nat := 1024

/-- `InventorySectionStatus` -/
def statuses : List String :=
  ["ok", "partial", "unavailable", "unsupported", "permission_denied"]

/-! ## Canonical bytes -/

/-- The keys of `_GO_STRING_ESCAPES`. -/
def goStringEscapes (n : Nat) : Bool :=
  n == 0x3C || n == 0x3E || n == 0x26 || n == 0x2028 || n == 0x2029

/-- `json.dumps(value, ensure_ascii=False).translate(_GO_STRING_ESCAPES)`,
without the quotes. -/
def goString (s : String) : List Char :=
  (s.toList.flatMap (escapeUnit lit1 Char.toNat fun _ => false)).flatMap
    (escapeAfter goStringEscapes)

/-- `_go_json` -/
def goJson (v : Value) : List Char :=
  (v.sortKeys (· ≤ ·)).render lit1 goString intDigits

def canonicalInventoryBytes (v : Value) : Bytes := utf8 (goJson v)

/-! ## Fields -/

/-- What the models' parser takes for a truth value or a number although it is
none, and what it takes for a time. -/
structure Readings where
  bool : Value → Bool
  int : Value → Option Int
  datetime : Value → Bool

/-- A text of no more code points than `maxLength`. -/
def textUpTo (maxLength : Nat) : Value → Bool
  | .str s => s.length ≤ maxLength
  | _ => false

def shortText : Value → Bool := textUpTo 255

def identifier : Value → Bool := textUpTo 128

def proseText : Value → Bool := textUpTo 2048

def isBool (r : Readings) : Value → Bool
  | .bool _ => true
  | v => r.bool v

def readInt (r : Readings) : Value → Option Int
  | .num n => some n
  | v => r.int v

/-- `Field(ge=ge, le=le)` -/
def boundedInt (r : Readings) (ge : Int) (le : Option Int) (v : Value) : Bool :=
  (readInt r v).any fun n => ge ≤ n && le.all (n ≤ ·)

/-- A member of an enumeration of texts. -/
def oneOf (values : List String) : Value → Bool
  | .str s => s ∈ values
  | _ => false

def isNone : Value → Bool
  | .null => true
  | _ => false

structure ModelField where
  name : String
  check : Value → Bool
  required : Bool := false
  nullable : Bool := true

def ModelField.takes (f : ModelField) (v : Value) : Bool :=
  (f.nullable && isNone v) || f.check v

/-- `model_validate` with `extra="forbid"`. -/
def modelValidate (fields : List ModelField) : Value → Bool
  | .obj members =>
    (members.all fun m =>
      (fields.find? fun f => f.name = m.1).any (·.takes m.2)) &&
    fields.all fun f => !f.required || members.any fun m => m.1 = f.name
  | _ => false

def listOf (maxLength : Nat) (item : Value → Bool) : Value → Bool
  | .arr items => items.length ≤ maxLength && items.all item
  | _ => false

/-! ## Models -/

section Models

variable (r : Readings)

def softwareEntry : List ModelField :=
  [{ name := "name", check := shortText, required := true, nullable := false },
    { name := "version", check := shortText },
    { name := "publisher", check := shortText },
    { name := "architecture"
      check := oneOf ["x86", "x64", "arm64", "unknown"]
      nullable := false },
    { name := "scope", check := oneOf ["machine", "user"], nullable := false },
    { name := "install_date", check := r.datetime },
    { name := "identifier", check := identifier }]

def installedSoftwareInventory : List ModelField :=
  [{ name := "entries"
     check := listOf maxSoftwareEntries (modelValidate (softwareEntry r))
     nullable := false }]

def missingUpdate : List ModelField :=
  [{ name := "title", check := proseText, required := true, nullable := false },
    { name := "kb_id", check := identifier },
    { name := "update_id", check := identifier },
    { name := "classification", check := shortText },
    { name := "product", check := shortText },
    { name := "severity", check := shortText },
    { name := "reboot_required", check := isBool r },
    { name := "is_downloaded", check := isBool r },
    { name := "support_url", check := shortText },
    { name := "last_deployment_change", check := r.datetime },
    { name := "priority_grade", check := shortText }]

def installedUpdate : List ModelField :=
  [{ name := "kb_id", check := identifier },
    { name := "update_id", check := identifier },
    { name := "revision_number", check := boundedInt r 0 none },
    { name := "title", check := proseText },
    { name := "description", check := proseText },
    { name := "installed_on", check := r.datetime },
    { name := "installed_by", check := shortText },
    { name := "client_application_id", check := shortText },
    { name := "support_url", check := shortText },
    { name := "result_code", check := boundedInt r 0 (some 5) },
    { name := "hresult", check := identifier }]

def windowsUpdatesInventory : List ModelField :=
  [{ name := "scanned_at", check := r.datetime },
    { name := "reboot_required", check := isBool r },
    { name := "source", check := shortText },
    { name := "error_code", check := shortText },
    { name := "history_error_code", check := shortText },
    { name := "missing"
      check := listOf maxMissingUpdates (modelValidate (missingUpdate r))
      nullable := false },
    { name := "installed"
      check := listOf maxInstalledUpdates (modelValidate (installedUpdate r))
      nullable := false }]

/-- `SECTION_MODELS`, with any models for the sections of other collectors. -/
def sectionModels (others : InventorySection → List ModelField) :
    InventorySection → List ModelField
  | .installedSoftware => installedSoftwareInventory r
  | .windowsUpdates => windowsUpdatesInventory r
  | other => others other

end Models

/-! ## Sections -/

/-- A section as it is reported; the agent's times have an offset. -/
structure InventorySectionIn where
  sectionName : String
  status : String
  payload : Value

/-- The checks of `InventorySectionIn` and of its `typed_payload`. -/
def accepts (r : Readings) (others : InventorySection → List ModelField)
    (reported : InventorySectionIn) : Bool :=
  match InventorySection.members.find? (·.value = reported.sectionName) with
  | none => false
  | some name =>
    reported.status ∈ statuses &&
      (canonicalInventoryBytes reported.payload).length ≤
        maxInventorySectionBytes &&
      modelValidate (sectionModels r others name) reported.payload

end NodeLink.Server.InventorySchemas
