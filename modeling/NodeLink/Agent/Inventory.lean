import NodeLink.Agent.Verify

/-!
# The agent's side of the inventory

`agent/internal/inventory/inventory.go`: the collected sections, the hashes a
heartbeat advertises for them, and the sections an upload is made of.
-/

namespace NodeLink.Agent.Inventory

open Lib

/-- `SchemaVersion` -/
def schemaVersion : Int := 1

/-- A collected `Section`. -/
structure CollectedSection (P : Type) where
  sectionName : String
  status : String
  collectedAt : Int
  payload : P
deriving DecidableEq, Repr

/-- What a collector puts into a payload; its numbers are integers. -/
abbrev Value := Json String Int

/-- The characters `json.Marshal` escapes although JSON does not ask for it. -/
def htmlEscaped (n : Nat) : Bool :=
  n == 0x3C || n == 0x3E || n == 0x26 || n == 0x2028 || n == 0x2029

/-- `json.Marshal` of a payload, its map keys sorted. -/
def marshal (v : Value) : Bytes :=
  utf8 ((v.sortKeys keyLe).render lit1
    (fun s => s.toList.flatMap (escapeUnit lit1 Char.toNat htmlEscaped))
    intDigits)

variable {P : Type}

/-- `Hashes`, read at one name: a section that cannot be hashed is left out, and
of two sections of one name the later one is advertised. -/
def hashes (contentHash : P → Option String)
    (sections : List (CollectedSection P)) (name : String) : Option String :=
  (sections.filterMap fun s =>
    if s.sectionName = name then contentHash s.payload else none).getLast?

/-- `Select` -/
def select (sections : List (CollectedSection P)) (want : List String) :
    List (CollectedSection P) :=
  sections.filter fun s => s.sectionName ∈ want

end NodeLink.Agent.Inventory
