import Mathlib.Data.List.Basic

/-!
# Inventory snapshots and what the server asks for

`server/app/core/inventory.py` with the two endpoints that call it: a heartbeat
advertises a content hash for each section, the server answers with the
sections it wants, and what is uploaded is stored when it differs from the
newest row of its section. Time is in microseconds.
-/

namespace NodeLink.Server

/-- `InventorySection` -/
inductive InventorySection where
  | system | cpu | memory | storage | network | installedSoftware
  | securityDefender | securityBitlocker | securitySecureBoot | securityTpm
  | localAdministrators | windowsUpdates | installedPackages
deriving DecidableEq, Repr

def InventorySection.value : InventorySection → String
  | .system => "system"
  | .cpu => "cpu"
  | .memory => "memory"
  | .storage => "storage"
  | .network => "network"
  | .installedSoftware => "installed_software"
  | .securityDefender => "security_defender"
  | .securityBitlocker => "security_bitlocker"
  | .securitySecureBoot => "security_secure_boot"
  | .securityTpm => "security_tpm"
  | .localAdministrators => "local_administrators"
  | .windowsUpdates => "windows_updates"
  | .installedPackages => "installed_packages"

/-- The members in the order the enumeration lists them. -/
def InventorySection.members : List InventorySection :=
  [.system, .cpu, .memory, .storage, .network, .installedSoftware,
    .securityDefender, .securityBitlocker, .securitySecureBoot, .securityTpm,
    .localAdministrators, .windowsUpdates, .installedPackages]

/-- `INVENTORY_REFRESH_INTERVAL`, 24 hours. -/
def inventoryRefreshInterval : Int := 24 * 60 * 60 * 1000000

/-- A row of `agent_inventory_snapshots`. -/
structure AgentInventorySnapshot (P : Type) where
  id : String
  agentID : String
  sectionName : String
  status : String
  schemaVersion : Int
  contentHash : String
  byteSize : Nat
  payload : P
  collectedAt : Int
  receivedAt : Int
deriving DecidableEq, Repr

variable {P : Type}

/-- The rows of one agent's section. -/
def sectionRows (rows : List (AgentInventorySnapshot P))
    (agentID sectionName : String) : List (AgentInventorySnapshot P) :=
  rows.filter fun row => row.agentID = agentID ∧ row.sectionName = sectionName

/-- `latest_sections`, read at one section: among the rows received last, the
one with the greatest id. -/
def latestSection (rows : List (AgentInventorySnapshot P))
    (agentID sectionName : String) : Option (AgentInventorySnapshot P) :=
  let own := sectionRows rows agentID sectionName
  (own.filter fun row =>
    (own.map (·.receivedAt)).max? = some row.receivedAt).foldl
    (fun current row =>
      match current with
      | none => some row
      | some best => if best.id < row.id then some row else some best)
    none

/-- The decision of `sections_to_request` about one section. -/
def wantsSection (stored : Option (AgentInventorySnapshot P))
    (advertised : Option String) (now : Int) : Bool :=
  match advertised, stored with
  | none, _ => false
  | some _, none => true
  | some advertisedHash, some current =>
    current.contentHash ≠ advertisedHash ∨
      inventoryRefreshInterval ≤ now - current.receivedAt

/-- `sections_to_request` -/
def sectionsToRequest
    (stored : String → Option (AgentInventorySnapshot P))
    (advertised : String → Option String) (now : Int) : List String :=
  (InventorySection.members.map (·.value)).filter fun name =>
    wantsSection (stored name) (advertised name) now

/-- `store_section`: the row to add, or `none` when nothing changed. -/
def storeSection (stored : Option (AgentInventorySnapshot P))
    (snapshot : AgentInventorySnapshot P) : Option (AgentInventorySnapshot P) :=
  match stored with
  | none => some snapshot
  | some row =>
    if row.contentHash = snapshot.contentHash ∧ row.status = snapshot.status ∧
        row.schemaVersion = snapshot.schemaVersion then none
    else some snapshot

end NodeLink.Server
