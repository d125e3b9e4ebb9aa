import NodeLink.Lib.Double
import NodeLink.Lib.Json
import NodeLink.Lib.KeyedDiff
import NodeLink.Server.Inventory

/-!
# Differences between inventory snapshots

`core/inventory_diff.py`, over payloads as the models of `schemas/inventory.py`
accept them: the list fields of a section hold lists, the others do not.
Python compares the tuples of `_canonical` by value, so that `True` is 1 and
1.0 is 1; the texts that the lists of a difference are sorted by are
parameters.
-/

namespace NodeLink.Server.InventoryDiff

open Lib Lib.KeyedDiff

/-! ## Payloads -/

/-- A number of a payload. A payload with another float is refused. -/
inductive InventoryNumber where
  | int (i : Int)
  | float (x : Double) (finite : x.isFinite = true)
  deriving DecidableEq

def InventoryNumber.value : InventoryNumber → ℚ
  | .int i => i
  | .float x _ => x.value

abbrev InventoryValue := Json String InventoryNumber

/-- A hashable form, its tuples as arrays and its numbers by their value. -/
abbrev Canonical := Json String ℚ

/-- The fields of a section's model that hold lists. -/
def listFields : InventorySection → List String
  | .memory => ["modules"]
  | .storage => ["disks", "volumes"]
  | .network => ["adapters"]
  | .installedSoftware => ["entries"]
  | .securityDefender => ["third_party_products"]
  | .securityBitlocker => ["volumes"]
  | .localAdministrators => ["members"]
  | .windowsUpdates => ["missing", "installed"]
  | .installedPackages => ["installed", "upgradable"]
  | _ => []

/-- A payload of a section, as its model accepts it. -/
structure SectionPayload (section_ : InventorySection) where
  members : List (String × InventoryValue)
  fields_unique : (members.map Prod.fst).Nodup
  keys_unique : ∀ m ∈ members, m.2.DistinctKeys
  lists : ∀ m ∈ members, m.1 ∈ listFields section_ ↔ ∃ items, m.2 = .arr items

/-- `LIST_IDENTITIES.get((section, field), ())` -/
def listIdentities : InventorySection → String → List String
  | .installedSoftware, "entries" => ["name", "version"]
  | .storage, "disks" => ["serial", "model"]
  | .storage, "volumes" => ["mount_point"]
  | .network, "adapters" => ["mac_address", "name"]
  | .memory, "modules" => ["slot"]
  | .securityBitlocker, "volumes" => ["mount_point"]
  | .securityDefender, "third_party_products" => []
  | .windowsUpdates, "missing" => ["update_id"]
  | .windowsUpdates, "installed" => ["update_id"]
  | .installedPackages, "installed" => ["package_id"]
  | .installedPackages, "upgradable" => ["package_id"]
  | _, _ => []

/-! ## Comparison -/

/-- `_canonical` -/
def canonical : InventoryValue → Canonical :=
  Json.fold .null (fun b => .num (if b then 1 else 0))
    (fun n => .num n.value) .str .arr
    fun ms => .arr
      ((Json.sortMembers (· ≤ ·) ms).map fun m => .arr [.str m.1, m.2])

/-- `entry.get(key)` -/
def fieldOf (members : List (String × InventoryValue)) (key : String) :
    InventoryValue := (getItem members key).getD .null

/-- `_identity` -/
def identity (keys : List String) : InventoryValue → List Canonical
  | .obj ms =>
    let parts := keys.map fun key => canonical (fieldOf ms key)
    if keys = [] ∨ parts.all fun part => decide (part = .null) then
      [.str "__value__", canonical (.obj ms)]
    else parts
  | entry => [.str "__scalar__", canonical entry]

structure FieldChange where
  field : String
  old : InventoryValue
  new : InventoryValue

/-- `sorted(set(before) | set(after))` -/
def fieldNames (names : List String) : List String :=
  names.dedup.mergeSort fun a b => decide (a ≤ b)

/-- `_field_changes` -/
def fieldChanges (before after : List (String × InventoryValue)) :
    List FieldChange :=
  (fieldNames ((before ++ after).map Prod.fst)).filterMap fun field =>
    if canonical (fieldOf before field) = canonical (fieldOf after field) then
      none
    else some ⟨field, fieldOf before field, fieldOf after field⟩

structure ElementChange where
  identity : Option (List (String × Canonical))
  changes : List FieldChange

structure ListChange where
  added : List InventoryValue
  removed : List InventoryValue
  changed : List ElementChange

structure Diff where
  fieldChanges : List FieldChange
  listChanges : List (String × ListChange)

variable {section_ : InventorySection}

/-- `payload.get(field, []) or []` -/
def SectionPayload.items (payload : SectionPayload section_) (field : String) :
    List InventoryValue :=
  match getItem payload.members field with
  | some (.arr items) => items
  | _ => []

variable (before after : SectionPayload section_) (field : String)

def addedItems : List InventoryValue :=
  added (identity (listIdentities section_ field)) (before.items field)
    (after.items field)

def removedItems : List InventoryValue :=
  removed (identity (listIdentities section_ field)) (before.items field)
    (after.items field)

/-- The elements that changed, as they were and as they are. -/
def changedPairs : List (InventoryValue × InventoryValue) :=
  changed (identity (listIdentities section_ field)) canonical
    (before.items field)
    (after.items field)

variable (itemText : InventoryValue → String)
  (changeText : ElementChange → String)

/-- `is_empty_diff` -/
def isEmptyDiff (diff : Diff) : Bool :=
  diff.fieldChanges.isEmpty && diff.listChanges.isEmpty

end NodeLink.Server.InventoryDiff
