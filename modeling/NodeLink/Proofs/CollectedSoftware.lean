import NodeLink.Agent.Software
import NodeLink.Lib.JsonSize
import NodeLink.Lib.ScaleDown
import NodeLink.Proofs.SoftwareOrder
import NodeLink.Server.InventorySchemas

/-!
# The software section at the server

The number of the entries and the bytes of the section are always what the
server takes: the loop that drops entries is a scaling down of their number, and
both sides count the same bytes. The texts of an entry are not cut, and the
server refuses the section as soon as a long one stays in it.
-/

namespace NodeLink.Proofs.CollectedSoftware

open Lib Agent.Software SoftwareOrder
open Agent.Inventory (CollectedSection Value marshal htmlEscaped)
open Server (InventorySection)
open Server.InventorySchemas (Readings ModelField InventorySectionIn accepts
  canonicalInventoryBytes modelValidate textUpTo)

/-! ## Bytes -/

/-- The bytes of a text between its quotes. -/
def textBytes (s : String) : Nat :=
  (utf8 (s.toList.flatMap (escapeUnit lit1 Char.toNat htmlEscaped))).length

def valueBytes (v : Value) : Nat :=
  v.textSize textBytes fun n => (utf8 (intDigits n)).length

theorem length_marshal (v : Value) : (marshal v).length = valueBytes v := by
  rw [marshal, Json.length_utf8_render, Json.textSize_sortKeys]
  rfl

theorem goString_eq (s : String) :
    Server.InventorySchemas.goString s =
      s.toList.flatMap (escapeUnit lit1 Char.toNat htmlEscaped) := by
  rw [Server.InventorySchemas.goString, List.flatMap_assoc]
  refine congrArg s.toList.flatMap (funext fun c => ?_)
  exact flatMap_escapeAfter (by decide) c

/-- The server counts the bytes the agent counts. -/
theorem length_canonicalInventoryBytes (v : Value) :
    (canonicalInventoryBytes v).length = valueBytes v := by
  rw [canonicalInventoryBytes, Server.InventorySchemas.goJson,
    Json.length_utf8_render, Json.textSize_sortKeys]
  simp only [goString_eq]
  rfl

theorem valueBytes_str (s : String) :
    valueBytes (.str s) = textBytes s + 2 := by
  rw [valueBytes, Json.textSize_str]

theorem valueBytes_arr (vs : List Value) :
    valueBytes (.arr vs) = Json.listSize (vs.map valueBytes) :=
  Json.textSize_arr ..

theorem valueBytes_obj (ms : List (String × Value)) :
    valueBytes (.obj ms) =
      Json.membersSize (ms.map fun m => (textBytes m.1, valueBytes m.2)) :=
  Json.textSize_obj ..

/-! ## The cut of the software section -/

/-- The bytes of the section with these entries. -/
def softwareBytes (entries : List Value) : Nat :=
  12 + Json.listSize (entries.map valueBytes)

theorem valueBytes_entriesPayload (entries : List Value) :
    valueBytes (entriesPayload entries) = softwareBytes entries := by
  have hname : textBytes "entries" = 7 := by decide
  rw [entriesPayload, valueBytes_obj, List.map_singleton, valueBytes_arr, hname,
    Json.membersSize, List.map_singleton, Json.listSize, List.sum_singleton,
    List.length_singleton, softwareBytes]
  omega

/-- The bytes of the section with the first `k` entries. -/
def bytesOfFirst (entries : List Value) (k : Nat) : Nat :=
  softwareBytes (entries.take k)

/-- How many entries the loop leaves. -/
def leftBy (entries : List Value) : Nat :=
  scaleDown (bytesOfFirst entries) maxSectionBytes entries.length

theorem bytesOfFirst_length (entries : List Value) :
    bytesOfFirst entries entries.length =
      (marshal (entriesPayload entries)).length := by
  rw [bytesOfFirst, List.take_length, length_marshal,
    valueBytes_entriesPayload]

theorem leftBy_take {entries : List Value} {k : Nat} (hk : k ≤ entries.length) :
    leftBy (entries.take k) =
      scaleDown (bytesOfFirst entries) maxSectionBytes k := by
  have hlength : (entries.take k).length = k := by
    rw [List.length_take, Nat.min_eq_left hk]
  rw [leftBy, hlength]
  refine scaleDown_congr fun j hj => ?_
  rw [bytesOfFirst, bytesOfFirst, List.take_take, Nat.min_eq_left hj]

/-- The loop is the cut. -/
theorem fitLoop_payload (entries : List Value) (trimmed : Bool) :
    (fitLoop entries trimmed).1 =
      entriesPayload (entries.take (leftBy entries)) := by
  induction entries, trimmed using fitLoop.induct with
  | case1 entries trimmed hnone =>
      rw [List.length_eq_zero_iff] at hnone
      rw [fitLoop, hnone, List.take_nil]
      rfl
  | case2 entries trimmed hsome encoded hfits =>
      have hbytes : bytesOfFirst entries entries.length ≤ maxSectionBytes := by
        rw [bytesOfFirst_length]
        exact hfits
      rw [fitLoop, if_neg hsome, if_pos hfits, leftBy,
        scaleDown_of_fits hbytes, List.take_length]
  | case3 entries trimmed hsome encoded hexceeds keep ih =>
      have hbytes : ¬ bytesOfFirst entries entries.length ≤
          maxSectionBytes := by
        rw [bytesOfFirst_length]
        exact hexceeds
      have hkeep : (if keep ≥ entries.length then entries.length - 1
          else keep) = min keep (entries.length - 1) := by
        split <;> omega
      have hleft : leftBy entries = scaleDown (bytesOfFirst entries)
          maxSectionBytes (min keep (entries.length - 1)) := by
        rw [leftBy, scaleDown_step hsome hbytes, bytesOfFirst_length]
      rw [fitLoop, if_neg hsome, if_neg hexceeds]
      refine ih.trans ?_
      rw [dite_eq_ite, hkeep, leftBy_take (by omega), ← hleft, List.take_take,
        Nat.min_eq_left (hleft ▸ scaleDown_le)]

/-- The entries that are left of a list. -/
def leftEntries (entries : List SoftwareEntry) : List SoftwareEntry :=
  (entries.take Agent.Software.maxSoftwareEntries).take
    (leftBy ((entries.take Agent.Software.maxSoftwareEntries).map (·.toMap)))

theorem fitSoftwareEntries_payload (entries : List SoftwareEntry) :
    (fitSoftwareEntries (entries.map (·.toMap))).1 =
      entriesPayload ((leftEntries entries).map (·.toMap)) := by
  rw [fitSoftwareEntries, leftEntries, List.map_take]
  split
  · rw [fitLoop_payload, List.map_take]
  · next hfew =>
    rw [not_lt, List.length_map] at hfew
    rw [fitLoop_payload, List.take_of_length_le hfew]

theorem leftEntries_length (entries : List SoftwareEntry) :
    (leftEntries entries).length ≤ Agent.Software.maxSoftwareEntries :=
  (List.length_take_le' ..).trans (List.length_take_le ..)

theorem leftEntries_subset (entries : List SoftwareEntry) :
    leftEntries entries ⊆ entries :=
  fun _ h => List.mem_of_mem_take (List.mem_of_mem_take h)

theorem softwareBytes_leftEntries (entries : List SoftwareEntry) :
    softwareBytes ((leftEntries entries).map (·.toMap)) ≤ maxSectionBytes := by
  have hnone : ∀ first, bytesOfFirst first 0 ≤ maxSectionBytes := by
    intro first
    rw [bytesOfFirst, List.take_zero]
    decide
  rw [leftEntries, List.map_take]
  exact size_scaleDown_le (hnone _)

/-! ## The model of an entry -/

/-- What the server asks of the row behind an entry. -/
structure RowFits (r : Readings) (row : RawSoftware) : Prop where
  name : (trimSpace row.name).length ≤ 255
  version : (trimSpace row.version).length ≤ 255
  publisher : (trimSpace row.publisher).length ≤ 255
  identifier : (trimSpace row.identifier).length ≤ 128
  installDate : ∀ date, parseInstallDate row.installDate = some date →
    r.datetime (.str date) = true

theorem takes_of_notNone {f : ModelField} {v : Value}
    (h : Server.InventorySchemas.isNone v = false) : f.takes v = f.check v := by
  rw [ModelField.takes, h, Bool.and_false, Bool.false_or]

theorem takes_str (f : ModelField) (s : String) :
    f.takes (.str s) = f.check (.str s) :=
  takes_of_notNone rfl

theorem takes_arr (f : ModelField) (vs : List Value) :
    f.takes (.arr vs) = f.check (.arr vs) :=
  takes_of_notNone rfl

theorem takes_bool (f : ModelField) (b : Bool) :
    f.takes (.bool b) = f.check (.bool b) :=
  takes_of_notNone rfl

theorem optionalMember_fits {value : String} {n : Nat} :
    (∀ s, optionalMember value = some s → s.length ≤ n) ↔
      (trimSpace value).length ≤ n := by
  unfold optionalMember
  split
  · next hblank =>
    rw [hblank]
    exact ⟨fun _ => Nat.zero_le n, fun _ _ h => nomatch h⟩
  · exact ⟨fun h => h _ rfl, fun h s hs => Option.some.inj hs ▸ h⟩

theorem textUpTo_str {n : Nat} {s : String} :
    textUpTo n (.str s) = true ↔ s.length ≤ n := decide_eq_true_iff

theorem oneOf_architectureFor (source : String) :
    Server.InventorySchemas.oneOf ["x86", "x64", "arm64", "unknown"]
      (.str (architectureFor source)) = true := by
  unfold architectureFor
  split_ifs <;> decide

theorem oneOf_scopeFor (source : String) :
    Server.InventorySchemas.oneOf ["machine", "user"]
      (.str (scopeFor source)) = true := by
  unfold scopeFor
  split <;> decide

theorem modelValidate_rowEntry (r : Readings) (row : RawSoftware) :
    modelValidate (Server.InventorySchemas.softwareEntry r)
        (rowEntry row).toMap = true ↔ RowFits r row := by
  have hmembers : modelValidate (Server.InventorySchemas.softwareEntry r)
        (rowEntry row).toMap = true ↔
      (trimSpace row.name).length ≤ 255 ∧
        (∀ s, optionalMember row.version = some s → s.length ≤ 255) ∧
        (∀ s, optionalMember row.publisher = some s → s.length ≤ 255) ∧
        (∀ s, optionalMember row.identifier = some s → s.length ≤ 128) ∧
        ∀ date, parseInstallDate row.installDate = some date →
          r.datetime (.str date) = true := by
    rw [SoftwareEntry.toMap, modelValidate]
    simp [Server.InventorySchemas.softwareEntry, takes_str, rowEntry, entryOf,
      trimmed, oneOf_architectureFor, oneOf_scopeFor, textUpTo_str,
      Server.InventorySchemas.shortText, Server.InventorySchemas.identifier]
  rw [hmembers, optionalMember_fits, optionalMember_fits, optionalMember_fits]
  constructor
  · rintro ⟨hname, hversion, hpublisher, hidentifier, hdate⟩
    exact ⟨hname, hversion, hpublisher, hidentifier, hdate⟩
  · intro h
    exact ⟨h.name, h.version, h.publisher, h.identifier, h.installDate⟩

/-! ## The software section -/

/-- A section as it arrives. -/
def reported (collected : CollectedSection Value) : InventorySectionIn where
  sectionName := collected.sectionName
  status := collected.status
  payload := collected.payload

/-- The row's entry stays in a section that may be collected. -/
def Stays (toLower : String → String) (equalFold : String → String → Bool)
    (rows : List RawSoftware) (row : RawSoftware) : Prop :=
  ∃ entries, NormalizeSoftware toLower equalFold rows entries ∧
    rowEntry row ∈ leftEntries entries

theorem modelValidate_entriesPayload (r : Readings) (entries : List Value) :
    modelValidate (Server.InventorySchemas.installedSoftwareInventory r)
        (entriesPayload entries) = true ↔
      entries.length ≤ Agent.Software.maxSoftwareEntries ∧
        ∀ entry ∈ entries,
          modelValidate (Server.InventorySchemas.softwareEntry r) entry =
            true := by
  rw [entriesPayload, modelValidate]
  simp [Server.InventorySchemas.installedSoftwareInventory, takes_arr,
    Server.InventorySchemas.listOf, Agent.Software.maxSoftwareEntries,
    Server.InventorySchemas.maxSoftwareEntries]

/-- The bytes and the number of the entries are always right. -/
theorem accepts_sectionOf (r : Readings)
    (others : InventorySection → List ModelField)
    (entries : List SoftwareEntry) (collectedAt : Int) :
    accepts r others (reported (sectionOf entries collectedAt)) = true ↔
      ∀ entry ∈ leftEntries entries,
        modelValidate (Server.InventorySchemas.softwareEntry r) entry.toMap =
          true := by
  have hname : InventorySection.members.find?
      (·.value = "installed_software") = some .installedSoftware := by decide
  have hstatus : (sectionOf entries collectedAt).status ∈
      Server.InventorySchemas.statuses := by
    have hall : ∀ trimmed : Bool, (if trimmed then "partial" else "ok") ∈
        Server.InventorySchemas.statuses := by
      decide
    exact hall _
  have hbytes : (canonicalInventoryBytes (entriesPayload
      ((leftEntries entries).map (·.toMap)))).length ≤
        Server.InventorySchemas.maxInventorySectionBytes := by
    rw [length_canonicalInventoryBytes, valueBytes_entriesPayload]
    exact softwareBytes_leftEntries entries
  have hlength : ((leftEntries entries).map (·.toMap)).length ≤
      Agent.Software.maxSoftwareEntries := by
    rw [List.length_map]
    exact leftEntries_length entries
  have hpayload : (reported (sectionOf entries collectedAt)).payload =
      entriesPayload ((leftEntries entries).map (·.toMap)) :=
    fitSoftwareEntries_payload entries
  rw [accepts, show (reported (sectionOf entries collectedAt)).sectionName =
    "installed_software" from rfl, hname, hpayload]
  simp only [Bool.and_eq_true, decide_eq_true_eq]
  rw [Server.InventorySchemas.sectionModels, modelValidate_entriesPayload]
  constructor
  · rintro ⟨-, -, hall⟩ entry hentry
    exact hall _ (List.mem_map_of_mem hentry)
  · intro h
    refine ⟨⟨hstatus, hbytes⟩, hlength, ?_⟩
    intro v hv
    obtain ⟨entry, hentry, rfl⟩ := List.mem_map.mp hv
    exact h entry hentry

theorem exists_row_of_normalize {toLower : String → String}
    {equalFold : String → String → Bool} {rows : List RawSoftware}
    {entries : List SoftwareEntry} {entry : SoftwareEntry}
    (h : NormalizeSoftware toLower equalFold rows entries)
    (hentry : entry ∈ entries) : ∃ row ∈ rows, rowEntry row = entry := by
  have hkept := (normalizeSoftware_iff.mp h).perm.subset hentry
  obtain ⟨row, hrow, -, heq⟩ := mem_topEntries.mp (keptEntries_subset hkept)
  exact ⟨row, hrow, heq⟩

/-- The software section is taken exactly where every row that stays in it has
short texts and a readable date. -/
theorem software_accepted_iff (r : Readings)
    (others : InventorySection → List ModelField)
    (toLower : String → String) (equalFold : String → String → Bool)
    (rows : List RawSoftware) (collectedAt : Int) :
    (∀ collected, SoftwareSection toLower equalFold rows collectedAt collected →
        accepts r others (reported collected) = true) ↔
      ∀ row ∈ rows, Stays toLower equalFold rows row → RowFits r row := by
  constructor
  · rintro h row - ⟨entries, hentries, hstays⟩
    have haccepted := h _ ⟨entries, hentries, rfl⟩
    exact (modelValidate_rowEntry r row).mp
      ((accepts_sectionOf r others entries collectedAt).mp haccepted _ hstays)
  · rintro h collected ⟨entries, hentries, rfl⟩
    refine (accepts_sectionOf r others entries collectedAt).mpr ?_
    intro entry hentry
    obtain ⟨row, hrow, rfl⟩ := exists_row_of_normalize hentries
      (leftEntries_subset entries hentry)
    exact (modelValidate_rowEntry r row).mpr
      (h row hrow ⟨entries, hentries, hentry⟩)

end NodeLink.Proofs.CollectedSoftware
