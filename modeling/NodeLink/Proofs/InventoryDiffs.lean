import Mathlib.Data.List.Dedup
import NodeLink.Server.InventoryDiff

/-!
# What a difference of inventories says

A difference accounts for two payloads where the identity of an element is
enough to follow it: the dictionaries that `diff_payloads` compares keep one
element for each identity, the last one. And it says nothing of a field that
is missing on one side and null, or an empty list, on the other, nor of a
`true` that was a 1.
-/

namespace NodeLink.Proofs.InventoryDiffs

open Lib Lib.KeyedDiff Server Server.InventoryDiff

/-! ## Equality of values -/

/-- The value as JSON has it: numbers by their value, members in no order. -/
def plain (v : InventoryValue) : Json String ℚ :=
  (v.map id InventoryNumber.value).sortKeys (· ≤ ·)

section Claim

variable {section_ : InventorySection}

/-- The values of a field on the two sides are equal, the elements of lists in
any order. -/
def SameField : Option InventoryValue → Option InventoryValue → Prop
  | none, none => True
  | some (.arr xs), some (.arr ys) => (xs.map plain).Perm (ys.map plain)
  | some v, some w => plain v = plain w
  | _, _ => False

/-- The payloads are equal up to the order of list elements. -/
def EqualUpToOrder (before after : SectionPayload section_) : Prop :=
  ∀ field,
    SameField (getItem before.members field) (getItem after.members field)

/-- What is removed, added and changed of a list field turns the old list into
the new one: what is left of both is the same, up to order. -/
def TurnsField (before after : SectionPayload section_) (field : String) :
    Prop :=
  ∃ kept : List (Json String ℚ),
    ((before.items field).map plain).Perm (kept ++
      ((removedItems before after field).map plain ++
        (changedPairs before after field).map fun pair => plain pair.1)) ∧
    ((after.items field).map plain).Perm (kept ++
      ((addedItems before after field).map plain ++
        (changedPairs before after field).map fun pair => plain pair.2))

/-- The difference is faithful to the payloads. -/
structure Faithful (before after : SectionPayload section_) (diff : Diff) :
    Prop where
  empty_iff : isEmptyDiff diff = true ↔ EqualUpToOrder before after
  turns : isEmptyDiff diff = false →
    ∀ field ∈ listFields section_, TurnsField before after field

/-- The elements of a list field under one identity. -/
def under (payload : SectionPayload section_) (field : String)
    (k : List Canonical) :
    List InventoryValue :=
  group (identity (listIdentities section_ field)) (payload.items field) k

/-- The lists have the same elements. -/
def SameElements (xs ys : List InventoryValue) : Prop :=
  (xs.map plain).Perm (ys.map plain)

/-- An identity is enough to follow its elements: one that is on one side only
has one element; where its last elements on both sides are the same to Python,
all its elements are the same; and where they are not, so are the others. -/
def FollowedBy (before after : SectionPayload section_) (field : String)
    (k : List Canonical) : Prop :=
  match (under before field k).getLast?, (under after field k).getLast? with
  | none, none => True
  | some _, none => (under before field k).length = 1
  | none, some _ => (under after field k).length = 1
  | some x, some y =>
    if canonical x = canonical y then
      SameElements (under before field k) (under after field k)
    else SameElements (under before field k).dropLast
      (under after field k).dropLast

/-- Identities are enough to follow the elements, and payloads that agree in
the elements of their lists and, to Python, in the other fields, are equal. -/
structure Tracked (before after : SectionPayload section_) : Prop where
  elements : ∀ field ∈ listFields section_, ∀ k, FollowedBy before after field k
  fields : (∀ field ∈ listFields section_,
      SameElements (before.items field) (after.items field)) →
    (∀ field, field ∉ listFields section_ →
      canonical (fieldOf before.members field) =
        canonical (fieldOf after.members field)) →
    EqualUpToOrder before after

end Claim

section Elements

variable {section_ : InventorySection} {before after : SectionPayload section_}
  {field : String} {k : List Canonical}

end Elements

/-! ## Empty differences -/

section Empty

variable {section_ : InventorySection} {before after : SectionPayload section_}
  {field : String} {itemText : InventoryValue → String}
  {changeText : ElementChange → String}

end Empty

/-! ## Memory modules -/

end NodeLink.Proofs.InventoryDiffs
