import NodeLink.Agent.UpdateScan
import NodeLink.Proofs.CollectedSoftware

/-!
# Collected sections at the server

The texts of a scanned row are cut to what the server takes, and so is the
number of the rows, but no byte is counted: the server refuses a scan of many
long rows, and with it all that was found.
-/

namespace NodeLink.Proofs.CollectedSections

open Lib Agent.Software Agent.UpdateScan CollectedSoftware SoftwareOrder
open Agent.Inventory (CollectedSection Value)
open Server (InventorySection)
open Server.InventorySchemas (Readings ModelField accepts
  canonicalInventoryBytes modelValidate textUpTo)

/-! ## Rows of a scan -/

theorem truncateRunes_length {limit : Nat} (hlimit : limit ≠ 0) (s : String) :
    (truncateRunes s limit).length ≤ limit := by
  unfold truncateRunes
  split
  · next h =>
    have hbytes := h.resolve_left hlimit
    rw [← String.length_toList]
    exact (length_le_utf8 _).trans hbytes
  split
  · assumption
  · rw [String.length_ofList]
    exact List.length_take_le ..

theorem mem_allowedMembers {row : Row} {fields : List String}
    {m : String × Value} :
    m ∈ allowedMembers row fields ↔
      m.1 ∈ fields ∧ ∃ v, row.lookup m.1 = some v ∧ isNull v = false ∧
        m.2 = bounded m.1 v := by
  rw [allowedMembers, List.mem_filterMap]
  constructor
  · rintro ⟨key, hkey, hmember⟩
    split at hmember
    · cases hmember
    · next v hlookup =>
      split at hmember
      · cases hmember
      · next hnull =>
        obtain rfl := Option.some.inj hmember
        exact ⟨hkey, v, hlookup, Bool.not_eq_true _ ▸ hnull, rfl⟩
  · rintro ⟨hkey, v, hlookup, hnull, hvalue⟩
    refine ⟨m.1, hkey, ?_⟩
    simp only [hlookup, hnull, ← hvalue]
    rfl

def isText : Value → Bool
  | .str _ => true
  | _ => false

/-- What the server asks of the members of a row, apart from their length: that
texts stand where there is a limit, and values the model takes elsewhere. -/
def Reads (model : List ModelField) (fields : List String) (row : Row) : Prop :=
  ∀ key ∈ fields, ∀ v, row.lookup key = some v → isNull v = false →
    match fieldLimits.lookup key with
    | some _ => isText v = true
    | none => (model.find? fun f => f.name = key).any (·.check v) = true

/-- The agent's limits are those of the model. -/
def SameLimits (model : List ModelField) (fields : List String) : Prop :=
  ∀ key ∈ fields, ∀ limit, fieldLimits.lookup key = some limit →
    ∃ f, (model.find? fun f => f.name = key) = some f ∧
      f.check = textUpTo limit

theorem sameLimits_missing (r : Readings) :
    SameLimits (Server.InventorySchemas.missingUpdate r) missingFields := by
  unfold SameLimits
  simp [missingFields, fieldLimits, Server.InventorySchemas.missingUpdate,
    List.lookup]
  exact ⟨rfl, rfl, rfl⟩

theorem sameLimits_installed (r : Readings) :
    SameLimits (Server.InventorySchemas.installedUpdate r) installedFields := by
  unfold SameLimits
  simp [installedFields, fieldLimits, Server.InventorySchemas.installedUpdate,
    List.lookup]
  exact ⟨rfl, rfl, rfl, rfl⟩

theorem fieldLimits_ne_zero {key : String} {limit : Nat}
    (h : fieldLimits.lookup key = some limit) : limit ≠ 0 := by
  have hall : ∀ p ∈ fieldLimits, p.2 ≠ 0 := by decide
  obtain ⟨before, after, heq, -⟩ := List.lookup_eq_some_iff.mp h
  exact hall (key, limit) (heq ▸ List.mem_append_right _ List.mem_cons_self)

/-- A kept member passes exactly where it can be read. -/
theorem takes_bounded {model : List ModelField} {fields : List String}
    (hlimits : SameLimits model fields) {key : String} (hkey : key ∈ fields)
    {v : Value} (hnull : isNull v = false) :
    (model.find? fun f => f.name = key).any (·.takes (bounded key v)) = true ↔
      match fieldLimits.lookup key with
      | some _ => isText v = true
      | none => (model.find? fun f => f.name = key).any (·.check v) = true := by
  have hnone : Server.InventorySchemas.isNone (bounded key v) = false := by
    cases v with
    | null => cases hnull
    | str s =>
        rw [bounded]
        cases fieldLimits.lookup key <;> rfl
    | bool b => rfl
    | num n => rfl
    | arr vs => rfl
    | obj ms => rfl
  cases hlimit : fieldLimits.lookup key with
  | none =>
      have hsame : bounded key v = v := by
        unfold bounded
        split
        · rw [hlimit]
        · rfl
      simp only [hsame] at hnone ⊢
      simp only [takes_of_notNone hnone]
  | some limit =>
      obtain ⟨f, hf, hcheck⟩ := hlimits key hkey limit hlimit
      rw [hf, Option.any_some, takes_of_notNone hnone, hcheck]
      cases v with
      | str s =>
          have hcut : bounded key (.str s) = .str (truncateRunes s limit) := by
            rw [bounded, hlimit]
          rw [hcut, textUpTo_str]
          exact ⟨fun _ => rfl,
            fun _ => truncateRunes_length (fieldLimits_ne_zero hlimit) s⟩
      | null => cases hnull
      | bool b => exact Iff.rfl
      | num n => exact Iff.rfl
      | arr vs => exact Iff.rfl
      | obj ms => exact Iff.rfl

/-- A row passes where its members can be read and none is missing. -/
theorem modelValidate_allowlist {model : List ModelField}
    {fields : List String} (hlimits : SameLimits model fields) {row : Row}
    (hrequired : ∀ f ∈ model, f.required = true →
      f.name ∈ fields ∧ ∃ s, row.lookup f.name = some (.str s)) :
    modelValidate model (allowlist row fields) = true ↔
      Reads model fields row := by
  rw [allowlist, modelValidate, Bool.and_eq_true, List.all_eq_true,
    List.all_eq_true]
  constructor
  · rintro ⟨hmembers, -⟩ key hkey v hlookup hnull
    have hmember := hmembers (key, bounded key v)
      (mem_allowedMembers.mpr ⟨hkey, v, hlookup, hnull, rfl⟩)
    exact (takes_bounded hlimits hkey hnull).mp hmember
  · intro h
    refine ⟨?_, ?_⟩
    · intro m hm
      obtain ⟨hkey, v, hlookup, hnull, hvalue⟩ := mem_allowedMembers.mp hm
      rw [hvalue]
      exact (takes_bounded hlimits hkey hnull).mpr (h m.1 hkey v hlookup hnull)
    · intro f hf
      rw [Bool.or_eq_true, Bool.not_eq_true']
      refine or_iff_not_imp_left.mpr fun hneeded => ?_
      obtain ⟨hkey, s, hlookup⟩ :=
        hrequired f hf (Bool.not_eq_false _ ▸ hneeded)
      exact List.any_eq_true.mpr ⟨(f.name, bounded f.name (.str s)),
        mem_allowedMembers.mpr ⟨hkey, _, hlookup, rfl, rfl⟩,
        decide_eq_true rfl⟩

/-! ## The grade and the title -/

theorem lookup_graded_of_ne (row : Row) {key : String}
    (hkey : key ≠ "priority_grade") :
    (graded row).lookup key = row.lookup key := by
  unfold graded
  split
  · rfl
  · exact AList.lookup_insert_ne hkey

/-- A grade that is given can be read. -/
theorem reads_graded (model : List ModelField) (fields : List String)
    (row : Row) : Reads model fields (graded row) ↔ Reads model fields row := by
  unfold graded
  split
  · exact Iff.rfl
  next habsent =>
  rw [Bool.not_eq_true, Option.isSome_eq_false_iff,
    Option.isNone_iff_eq_none] at habsent
  refine forall_congr' fun key => forall_congr' fun hkey => ?_
  by_cases hgrade : key = "priority_grade"
  · subst hgrade
    rw [AList.lookup_insert, habsent]
    refine ⟨fun _ v hv => (nomatch hv), fun _ v hv _ => ?_⟩
    obtain rfl := Option.some.inj hv
    rfl
  · rw [AList.lookup_insert_ne hgrade]

theorem exists_title {row : Row} (h : titled row = true) :
    ∃ s, row.lookup "title" = some (.str s) := by
  unfold titled nonEmptyString at h
  split at h
  · next s hlookup => exact ⟨s, hlookup⟩
  · cases h

theorem modelValidate_missing (r : Readings) {row : Row}
    (h : titled row = true) :
    modelValidate (Server.InventorySchemas.missingUpdate r)
        (allowlist (graded row) missingFields) = true ↔
      Reads (Server.InventorySchemas.missingUpdate r) missingFields row := by
  rw [modelValidate_allowlist (sameLimits_missing r), reads_graded]
  intro f hf hneeded
  have hname : f.name = "title" := by
    simp only [Server.InventorySchemas.missingUpdate, List.mem_cons,
      List.not_mem_nil, or_false] at hf
    rcases hf with rfl | rfl | rfl | rfl | rfl | rfl | rfl | rfl | rfl | rfl |
      rfl
    · rfl
    all_goals cases hneeded
  rw [hname, lookup_graded_of_ne row (by decide)]
  exact ⟨by decide, exists_title h⟩

theorem modelValidate_installed (r : Readings) (row : Row) :
    modelValidate (Server.InventorySchemas.installedUpdate r)
        (allowlist row installedFields) = true ↔
      Reads (Server.InventorySchemas.installedUpdate r) installedFields
        row := by
  refine modelValidate_allowlist (sameLimits_installed r) fun f hf hneeded => ?_
  simp only [Server.InventorySchemas.installedUpdate, List.mem_cons,
    List.not_mem_nil, or_false] at hf
  rcases hf with rfl | rfl | rfl | rfl | rfl | rfl | rfl | rfl | rfl | rfl |
    rfl
  all_goals cases hneeded

/-! ## The section of a scan -/

/-- The rows of missing updates that are sent. -/
def sentMissing (missing : List Row) : List Row :=
  (missing.filter titled).take Agent.UpdateScan.maxMissingUpdates

def sentInstalled (installed : List Row) : List Row :=
  installed.take Agent.UpdateScan.maxInstalledUpdates

/-- The bytes of a text member that is left out where the text is empty. -/
def errorBytes (nameLength : Nat) (code : String) : List (Nat × Nat) :=
  if code ≠ "" then [(nameLength, textBytes code + 2)] else []

/-- The bytes of a scan: its rows after their texts are cut, and a frame. -/
def scanBytes (missing installed : List Row) (scannedAt : Int)
    (rebootRequired : Option Bool) (errorCode historyErrorCode : String) :
    Nat :=
  Json.membersSize ([(10, textBytes (rfc3339 scannedAt) + 2), (6, 22),
      (7, Json.listSize ((sentMissing missing).map fun row =>
        valueBytes (allowlist (graded row) missingFields))),
      (9, Json.listSize ((sentInstalled installed).map fun row =>
        valueBytes (allowlist row installedFields)))] ++
    (rebootRequired.map fun b => (15, if b then 4 else 5)).toList ++
    errorBytes 10 errorCode ++ errorBytes 18 historyErrorCode)

/-- What the server asks of a scan. -/
structure ScanFits (r : Readings) (missing installed : List Row)
    (scannedAt : Int) (rebootRequired : Option Bool)
    (errorCode historyErrorCode : String) : Prop where
  missingReads : ∀ row ∈ sentMissing missing,
    Reads (Server.InventorySchemas.missingUpdate r) missingFields row
  installedReads : ∀ row ∈ sentInstalled installed,
    Reads (Server.InventorySchemas.installedUpdate r) installedFields row
  timeReads : r.datetime (.str (rfc3339 scannedAt)) = true
  shortError : errorCode.length ≤ 255
  shortHistoryError : historyErrorCode.length ≤ 255
  bytes : scanBytes missing installed scannedAt rebootRequired errorCode
    historyErrorCode ≤ 256 * 1024

section Scan

variable (r : Readings) (missing installed : List Row) (scannedAt : Int)
  (rebootRequired : Option Bool) (errorCode historyErrorCode : String)

theorem valueBytes_buildSection :
    valueBytes (buildSection missing installed scannedAt rebootRequired
        errorCode historyErrorCode).1.payload =
      scanBytes missing installed scannedAt rebootRequired errorCode
        historyErrorCode := by
  have hnames : textBytes "scanned_at" = 10 ∧ textBytes "source" = 6 ∧
      textBytes "windows_update_agent" = 20 ∧ textBytes "missing" = 7 ∧
      textBytes "installed" = 9 ∧ textBytes "reboot_required" = 15 ∧
      textBytes "error_code" = 10 ∧ textBytes "history_error_code" = 18 := by
    decide
  obtain ⟨hscanned, hsource, hagent, hmissing, hinstalled, hreboot, herror,
    hhistory⟩ := hnames
  have hcode : ∀ name code,
      (if code ≠ "" then [(name, Json.str code)] else []).map
          (fun m : String × Value => (textBytes m.1, valueBytes m.2)) =
        errorBytes (textBytes name) code := by
    intro name code
    rw [errorBytes]
    split <;> rfl
  rw [buildSection, valueBytes_obj, scanBytes]
  refine congrArg Json.membersSize ?_
  simp only [List.map_append, hcode, herror, hhistory]
  refine congrArg₂ _ (congrArg₂ _ (congrArg₂ _ ?_ ?_) rfl) rfl
  · simp only [List.map_cons, List.map_nil, valueBytes_str, valueBytes_arr,
      hscanned, hsource, hagent, hmissing, hinstalled, sentMissing,
      sentInstalled, List.map_take, List.map_map]
    rfl
  · cases rebootRequired with
    | none => rfl
    | some b =>
        simp only [Option.map_some, Option.toList_some, List.map_singleton,
          hreboot]
        rfl

theorem listSize_le_scanBytes :
    Json.listSize ((sentMissing missing).map fun row =>
        valueBytes (allowlist (graded row) missingFields)) ≤
      scanBytes missing installed scannedAt rebootRequired errorCode
        historyErrorCode := by
  have hmember : ∀ (a b c d : Nat × Nat) (e f g : List (Nat × Nat)),
      c ∈ [a, b, c, d] ++ e ++ f ++ g := by
    intro a b c d e f g
    simp
  exact Json.le_membersSize (hmember (10, _) (6, 22) (7, _) (9, _) _ _ _)

theorem listOf_missing :
    Server.InventorySchemas.listOf Server.InventorySchemas.maxMissingUpdates
        (modelValidate (Server.InventorySchemas.missingUpdate r))
        (.arr (((missing.filter titled).map fun row =>
          allowlist (graded row) missingFields).take maxMissingUpdates)) =
        true ↔
      ∀ row ∈ sentMissing missing,
        Reads (Server.InventorySchemas.missingUpdate r) missingFields row := by
  rw [Server.InventorySchemas.listOf, ← List.map_take, ← sentMissing,
    Bool.and_eq_true, decide_eq_true_eq, List.length_map, List.all_map,
    List.all_eq_true]
  have hrows : ∀ row ∈ sentMissing missing, titled row = true :=
    fun row hrow => (List.mem_filter.mp (List.mem_of_mem_take hrow)).2
  constructor
  · rintro ⟨-, hall⟩ row hrow
    exact (modelValidate_missing r (hrows row hrow)).mp (hall row hrow)
  · intro h
    refine ⟨List.length_take_le .., fun row hrow => ?_⟩
    exact (modelValidate_missing r (hrows row hrow)).mpr (h row hrow)

theorem listOf_installed :
    Server.InventorySchemas.listOf Server.InventorySchemas.maxInstalledUpdates
        (modelValidate (Server.InventorySchemas.installedUpdate r))
        (.arr ((installed.map fun row =>
          allowlist row installedFields).take maxInstalledUpdates)) = true ↔
      ∀ row ∈ sentInstalled installed,
        Reads (Server.InventorySchemas.installedUpdate r) installedFields
          row := by
  rw [Server.InventorySchemas.listOf, ← List.map_take, ← sentInstalled,
    Bool.and_eq_true, decide_eq_true_eq, List.length_map, List.all_map,
    List.all_eq_true]
  constructor
  · rintro ⟨-, hall⟩ row hrow
    exact (modelValidate_installed r row).mp (hall row hrow)
  · intro h
    refine ⟨List.length_take_le .., fun row hrow => ?_⟩
    exact (modelValidate_installed r row).mpr (h row hrow)

theorem shortText_or_empty {code : String} :
    (¬ code = "" → Server.InventorySchemas.shortText (.str code) = true) ↔
      code.length ≤ 255 := by
  rw [Server.InventorySchemas.shortText, textUpTo_str]
  by_cases hcode : code = ""
  · subst hcode
    exact iff_of_true (fun h => absurd rfl h) (Nat.zero_le _)
  · exact ⟨fun h => h hcode, fun h _ => h⟩

theorem modelValidate_buildSection :
    modelValidate (Server.InventorySchemas.windowsUpdatesInventory r)
        (buildSection missing installed scannedAt rebootRequired errorCode
          historyErrorCode).1.payload = true ↔
      r.datetime (.str (rfc3339 scannedAt)) = true ∧
      (∀ row ∈ sentMissing missing,
        Reads (Server.InventorySchemas.missingUpdate r) missingFields row) ∧
      (∀ row ∈ sentInstalled installed,
        Reads (Server.InventorySchemas.installedUpdate r) installedFields
          row) ∧
      errorCode.length ≤ 255 ∧ historyErrorCode.length ≤ 255 := by
  have hsource : Server.InventorySchemas.shortText
      (.str "windows_update_agent") = true := by decide
  rw [buildSection, modelValidate, ← listOf_missing r missing,
    ← listOf_installed r installed]
  cases rebootRequired with
  | none =>
      simp [Server.InventorySchemas.windowsUpdatesInventory, takes_str,
        takes_arr, hsource, shortText_or_empty]
  | some b =>
      simp [Server.InventorySchemas.windowsUpdatesInventory, takes_str,
        takes_arr, takes_bool, Server.InventorySchemas.isBool, hsource,
        shortText_or_empty]

theorem accepts_buildSection (others : InventorySection → List ModelField) :
    accepts r others (reported (buildSection missing installed scannedAt
        rebootRequired errorCode historyErrorCode).1) = true ↔
      ScanFits r missing installed scannedAt rebootRequired errorCode
        historyErrorCode := by
  have hname : InventorySection.members.find?
      (·.value = sectionWindowsUpdates) = some .windowsUpdates := by decide
  have hstatus : (buildSection missing installed scannedAt rebootRequired
      errorCode historyErrorCode).1.status ∈
        Server.InventorySchemas.statuses := by
    have hall : ∀ failed cut : Prop, ∀ [Decidable failed] [Decidable cut],
        (if failed then "unavailable" else if cut then "partial" else "ok") ∈
          Server.InventorySchemas.statuses := by
      intro failed cut _ _
      split_ifs <;> decide
    exact hall _ _
  rw [accepts, show (reported (buildSection missing installed scannedAt
    rebootRequired errorCode historyErrorCode).1).sectionName =
      sectionWindowsUpdates from rfl, hname]
  simp only [Bool.and_eq_true, decide_eq_true_eq]
  rw [Server.InventorySchemas.sectionModels, reported,
    length_canonicalInventoryBytes, valueBytes_buildSection,
    modelValidate_buildSection]
  constructor
  · rintro ⟨⟨-, hbytes⟩, htime, hmissing, hinstalled, herror, hhistory⟩
    exact ⟨hmissing, hinstalled, htime, herror, hhistory, hbytes⟩
  · intro h
    exact ⟨⟨hstatus, h.bytes⟩, h.timeReads, h.missingReads, h.installedReads,
      h.shortError, h.shortHistoryError⟩

end Scan

/-- The server takes a collected section exactly where the software rows that
stay in it have short texts and readable dates, and a scan exactly where its
rows fit the byte limit after their texts are cut, its error codes are short and
what is not a text can be read. -/
theorem collected_accepted_iff (r : Readings)
    (others : InventorySection → List ModelField)
    (toLower : String → String) (equalFold : String → String → Bool)
    (rows : List RawSoftware) (collectedAt : Int)
    (missing installed : List Row) (scannedAt : Int)
    (rebootRequired : Option Bool) (errorCode historyErrorCode : String) :
    ((∀ collected,
        SoftwareSection toLower equalFold rows collectedAt collected →
        accepts r others (reported collected) = true) ↔
      ∀ row ∈ rows, Stays toLower equalFold rows row → RowFits r row) ∧
    (accepts r others (reported (buildSection missing installed scannedAt
        rebootRequired errorCode historyErrorCode).1) = true ↔
      ScanFits r missing installed scannedAt rebootRequired errorCode
        historyErrorCode) :=
  ⟨software_accepted_iff r others toLower equalFold rows collectedAt,
    accepts_buildSection r missing installed scannedAt rebootRequired errorCode
      historyErrorCode others⟩

/-! ## A long name and long titles -/

/-- A text of this many letters. -/
def letters (n : Nat) : String := String.ofList (List.replicate n 'a')

theorem length_letters (n : Nat) : (letters n).length = n := by
  rw [letters, String.length_ofList, List.length_replicate]

theorem textBytes_letters (n : Nat) : textBytes (letters n) = n := by
  have hletter : escapeUnit lit1 Char.toNat Agent.Inventory.htmlEscaped 'a' =
      ['a'] := by decide
  rw [textBytes, letters, String.toList_ofList]
  induction n with
  | zero => rfl
  | succ n ih =>
      rw [List.replicate_succ, List.flatMap_cons, hletter, utf8_append,
        List.length_append, ih, Nat.add_comm]
      rfl

theorem trimSpace_letters (n : Nat) : trimSpace (letters n) = letters n := by
  have hletter : ∀ c ∈ List.replicate n 'a', ¬ goSpace c = true := by
    intro c hc
    rw [List.eq_of_mem_replicate hc]
    decide
  rw [trimSpace, letters, String.toList_ofList, trim_eq_self_iff.mpr]
  constructor
  · exact List.dropWhile_eq_self_iff.mpr fun hl =>
      hletter _ (List.getElem_mem hl)
  · exact List.rdropWhile_eq_self_iff.mpr fun hl =>
      hletter _ (List.getLast_mem hl)

/-- A program with a name of 256 letters. -/
def longName : RawSoftware where
  name := letters 256
  source := "machine_x64"

/-- An update with a title of 2048 letters. -/
def longTitle : Row := AList.insert "title" (.str (letters 2048)) ∅

/-- Any text for a time, and nothing in place of a value of another type. -/
def strictReadings : Readings where
  bool _ := false
  int _ := none
  datetime := isText

theorem toMap_longName :
    (rowEntry longName).toMap = .obj [("name", .str (letters 256)),
      ("architecture", .str "x64"), ("scope", .str "machine")] := by
  have hname : (rowEntry longName).name = letters 256 := trimSpace_letters 256
  have hblank : optionalMember "" = none := by decide
  have hdate : parseInstallDate "" = none := by decide
  rw [SoftwareEntry.toMap, hname]
  simp only [rowEntry, trimmed, entryOf, longName, hblank, hdate]
  rfl

theorem normalize_singleton {toLower : String → String}
    {equalFold : String → String → Bool} {row : RawSoftware}
    (hnamed : Named row) {entries : List SoftwareEntry}
    (h : NormalizeSoftware toLower equalFold [row] entries) :
    entries = [rowEntry row] := by
  have hkept : keptEntries toLower [row] = [rowEntry row] := by
    rw [keptEntries, bestRows, List.foldl_cons, List.foldl_nil, keepBest,
      if_neg hnamed]
    rfl
  have hperm := (normalizeSoftware_iff.mp h).perm
  rw [hkept] at hperm
  exact List.perm_singleton.mp hperm

theorem stays_longName (toLower : String → String)
    (equalFold : String → String → Bool) :
    Stays toLower equalFold [longName] longName := by
  have hnamed : Named longName := by
    intro hblank
    have hlength := length_letters 256
    rw [← trimSpace_letters, show letters 256 = longName.name from rfl,
      hblank] at hlength
    exact absurd hlength (by decide)
  obtain ⟨entries, hentries⟩ :=
    exists_normalizeSoftware toLower equalFold [longName]
  refine ⟨entries, hentries, ?_⟩
  obtain rfl := normalize_singleton hnamed hentries
  have htexts : ∀ a b c x y z : String,
      valueBytes (.obj [(a, .str x), (b, .str y), (c, .str z)]) =
        Json.membersSize [(textBytes a, textBytes x + 2),
          (textBytes b, textBytes y + 2), (textBytes c, textBytes z + 2)] := by
    intro a b c x y z
    simp only [valueBytes_obj, valueBytes_str, List.map_cons, List.map_nil]
  have hsizes : textBytes "name" = 4 ∧ textBytes "architecture" = 12 ∧
      textBytes "x64" = 3 ∧ textBytes "scope" = 5 ∧
      textBytes "machine" = 7 := by
    decide
  obtain ⟨hname, harchitecture, hx64, hscope, hmachine⟩ := hsizes
  have hbytes : bytesOfFirst [(rowEntry longName).toMap] 1 ≤
      maxSectionBytes := by
    rw [bytesOfFirst, List.take_one, List.head?_cons, Option.toList_some,
      softwareBytes, List.map_singleton, toMap_longName, htexts,
      textBytes_letters, hname, harchitecture, hx64, hscope, hmachine]
    decide
  have hleft : leftBy [(rowEntry longName).toMap] = 1 :=
    scaleDown_of_fits hbytes
  rw [leftEntries]
  simp only [List.take_succ_cons, List.take_nil, List.map_cons, List.map_nil,
    Agent.Software.maxSoftwareEntries, hleft]
  exact List.mem_cons_self

/-- The text of a title is not cut before 2048 letters. -/
theorem le_bytes_longTitle :
    2048 ≤ valueBytes (allowlist (graded longTitle) missingFields) := by
  have hlimit : fieldLimits.lookup "title" = some 2048 := by decide
  have hcut : truncateRunes (letters 2048) 2048 = letters 2048 := by
    rw [truncateRunes, length_letters, if_pos (Nat.le_refl 2048), ite_self]
  have hmember : ("title", Json.str (letters 2048)) ∈
      allowedMembers (graded longTitle) missingFields := by
    refine mem_allowedMembers.mpr ⟨by decide, .str (letters 2048), ?_, rfl, ?_⟩
    · rw [lookup_graded_of_ne _ (by decide)]
      exact AList.lookup_insert _
    · rw [bounded, hlimit]
      exact congrArg Json.str hcut.symm
  have hle := Json.le_membersSize (List.mem_map_of_mem
    (f := fun m : String × Value => (textBytes m.1, valueBytes m.2)) hmember)
  rw [valueBytes_str, textBytes_letters] at hle
  rw [allowlist, valueBytes_obj]
  omega

theorem titled_longTitle : titled longTitle = true := by
  have hstr : ∀ s, nonEmptyString (some (.str s)) = decide (s ≠ "") :=
    fun s => rfl
  rw [titled, longTitle, AList.lookup_insert, hstr, decide_eq_true_eq]
  intro hempty
  have hlength := length_letters 2048
  rw [hempty] at hlength
  exact absurd hlength (by decide)

theorem scanBytes_longTitle :
    256 * 1024 < scanBytes (List.replicate 129 longTitle) [] 0 none "" "" := by
  have hsent : sentMissing (List.replicate 129 longTitle) =
      List.replicate 129 longTitle := by
    rw [sentMissing, List.filter_replicate, if_pos titled_longTitle,
      List.take_replicate, Nat.min_eq_right (by decide)]
  have hsum : 129 * 2048 ≤ ((List.replicate 129 longTitle).map fun row =>
      valueBytes (allowlist (graded row) missingFields)).sum := by
    rw [List.map_replicate, List.sum_replicate_nat]
    exact Nat.mul_le_mul_left 129 le_bytes_longTitle
  have hrows := Json.sum_le_listSize ((List.replicate 129 longTitle).map
    fun row => valueBytes (allowlist (graded row) missingFields))
  have hscan := listSize_le_scanBytes (List.replicate 129 longTitle) [] 0 none
    "" ""
  rw [hsent] at hscan
  omega

/-- One program with a name of 256 letters is enough for the one section, and
129 updates with titles of 2048 letters for the other. -/
theorem collected_refused :
    ¬ (∀ rows collected,
        SoftwareSection lower (fun s t => lower s == lower t) rows 0
          collected →
        accepts strictReadings (fun _ => []) (reported collected) = true) ∧
      ¬ ∀ missing installed,
        accepts strictReadings (fun _ => [])
          (reported (buildSection missing installed 0 none "" "").1) =
            true := by
  constructor
  · intro h
    have hfits := (software_accepted_iff strictReadings (fun _ => []) lower
      (fun s t => lower s == lower t) [longName] 0).mp (h [longName]) longName
      List.mem_cons_self (stays_longName _ _)
    have hname := hfits.name
    rw [longName, trimSpace_letters, length_letters] at hname
    exact absurd hname (by decide)
  · intro h
    have hfits := (accepts_buildSection ..).mp
      (h (List.replicate 129 longTitle) [])
    exact absurd hfits.bytes (not_le.mpr scanBytes_longTitle)

end NodeLink.Proofs.CollectedSections
