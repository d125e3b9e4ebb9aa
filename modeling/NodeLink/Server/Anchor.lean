import NodeLink.Lib.Hex
import NodeLink.Lib.Merkle
import NodeLink.Server.Audit

/-!
# Anchors of the audit log

`core/anchor.py`: a Merkle root over the event hashes of the chain as it
stands, and its check against the table later on.
-/

namespace NodeLink.Server

open Lib

/-- A row of `audit_anchors`. -/
structure AuditAnchor where
  eventCount : Nat
  lastEventID : String
  merkleRoot : String
  deriving DecidableEq, Repr

/-- What the code can raise. -/
inductive AnchorError where
  | zeroLeaves
  | notHexadecimal
  | indexOutOfRange
  deriving DecidableEq, Repr

section Anchor

variable (sha256 : Bytes → Bytes)

/-- `hashlib.sha256(data).hexdigest()` -/
def hexdigest (data : Bytes) : String := toHex (sha256 data)

/-- `hashlib.sha256(left + right).digest()` -/
def hashPair (left right : Bytes) : Bytes := sha256 (left ++ right)

/-- `merkle_root` -/
def merkleRoot (leafHashes : List String) : Except AnchorError String :=
  match leafHashes.mapM fromHex with
  | none => .error .notHexadecimal
  | some level =>
    match merkleTop (hashPair sha256) level with
    | none => .error .zeroLeaves
    | some node => .ok (toHex node)

/-- `_covered_events` -/
def coveredEvents (limit : Option Nat) (table : List AuditEvent) :
    List AuditEvent :=
  match limit with
  | none => table.insertionSort seqLe
  | some n => (table.insertionSort seqLe).take n

/-- `create_anchor` -/
def createAnchor (table : List AuditEvent) :
    Except AnchorError (Option AuditAnchor) :=
  match (coveredEvents none table).getLast? with
  | none => .ok none
  | some last =>
    match merkleRoot sha256 ((coveredEvents none table).map (·.eventHash)) with
    | .error e => .error e
    | .ok root =>
      .ok (some ⟨(coveredEvents none table).length, last.id, root⟩)

/-- `verify_anchor` -/
def verifyAnchor (table : List AuditEvent) (anchor : AuditAnchor) :
    Except AnchorError (Bool × Option String) :=
  if (coveredEvents (some anchor.eventCount) table).length < anchor.eventCount
  then .ok (false, some "covered events missing (chain shorter than anchor)")
  else
    match (coveredEvents (some anchor.eventCount) table).getLast? with
    | none => .error .indexOutOfRange
    | some last =>
      if last.id ≠ anchor.lastEventID then
        .ok (false, some "covered prefix ends on a different event")
      else
        match merkleRoot sha256
            ((coveredEvents (some anchor.eventCount) table).map (·.eventHash)) with
        | .error e => .error e
        | .ok root =>
          if root ≠ anchor.merkleRoot then
            .ok (false, some "merkle root mismatch")
          else .ok (true, none)

end Anchor

end NodeLink.Server
