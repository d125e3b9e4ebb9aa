import Mathlib
import NodeLink.Lib.ZipRoundTrip

/-!
# Archives that are spelled as they are written

A reader passes over much: what stands before, between and behind the members,
fields that the directory repeats, fields that nobody reads. An archive without
any room for that is the archive that is written from its members, and no other
is.

A part of the file is known by its place and its fields: the bytes of a record
are determined by the fields it is read as.
-/

namespace NodeLink.Lib.Zip

open Lib

/-! ## Archives without room -/

/-- The fields of the header that goes with an entry. -/
def headerFields (x : ZipInfo) : List Nat :=
  [stringFileHeader, x.extractVersion, x.reserved, x.flagBits, x.compressType,
    x.dateTime.dosTime, x.dateTime.dosDate, x.crc, x.compressSize, x.fileSize,
    x.filename.length, 0]

/-- The members stand one behind the other: a header, a name and the data. -/
def Adjacent : Nat → List ZipInfo → Nat → Prop
  | start, [], stop => start = stop
  | start, x :: infos, stop => x.headerOffset = start ∧
    Adjacent (start + 30 + x.filename.length + x.compressSize) infos stop

/-- The entries take up the whole directory, each of them its name and nothing
more, by their own account. -/
def Filled : Bytes → List ZipInfo → Prop
  | directory, [] => directory = []
  | directory, x :: infos => entryLength directory = 46 + x.filename.length ∧
    Filled (directory.drop (entryLength directory)) infos

/-- There is no room in the file for what is not written. -/
structure Tight (file : Bytes) (endrec : EndRecord) (infos : List ZipInfo) :
    Prop where
  noZip64 : endrec.signature = stringEndArchive
  members : Adjacent 0 infos endrec.offset
  directory : endrec.location = endrec.offset + endrec.size
  last : file.length = endrec.location + 22
  ending : structUnpack structEndArchive (file.drop endrec.location) =
    [stringEndArchive, 0, 0, infos.length, infos.length, endrec.size,
      endrec.offset, 0]
  filled : Filled ((file.drop endrec.offset).take endrec.size) infos
  entries : ∀ x ∈ infos, x.reserved = 0 ∧ x.volume = 0 ∧
    x.origFilename = x.filename
  headers : ∀ x ∈ infos, structUnpack structFileHeader
    (file.drop x.headerOffset.toNat) = headerFields x

/-- An entry as the directory has it. -/
def ZipInfo.bare (x : ZipInfo) : ZipInfo := { x with endOffset := none }

/-! ## Names -/

set_option maxRecDepth 2000 in
theorem upper437_eq : upper437 =
      ['Ç', 'ü', 'é', 'â', 'ä', 'à', 'å', 'ç', 'ê', 'ë', 'è', 'ï', 'î', 'ì',
      'Ä', 'Å', 'É', 'æ', 'Æ', 'ô', 'ö', 'ò', 'û', 'ù', 'ÿ', 'Ö', 'Ü', '¢',
      '£', '¥', '₧', 'ƒ', 'á', 'í', 'ó', 'ú', 'ñ', 'Ñ', 'ª', 'º', '¿', '⌐',
      '¬', '½', '¼', '¡', '«', '»', '░', '▒', '▓', '│', '┤', '╡', '╢', '╖',
      '╕', '╣', '║', '╗', '╝', '╜', '╛', '┐', '└', '┴', '┬', '├', '─', '┼',
      '╞', '╟', '╚', '╔', '╩', '╦', '╠', '═', '╬', '╧', '╨'] ++
      ['╤', '╥', '╙', '╘', '╒', '╓', '╫', '╪', '┘', '┌', '█', '▄', '▌', '▐',
      '▀', 'α', 'ß', 'Γ', 'π', 'Σ', 'σ', 'µ', 'τ', 'Φ', 'Θ', 'Ω', 'δ', '∞',
      'φ', 'ε', '∩', '≡', '±', '≥', '≤', '⌠', '⌡', '÷', '≈', '°', '∙', '·',
      '√', 'ⁿ', '²', '■', '\u00a0'] := by
  unfold upper437
  exact (String.toList_append).trans
    (congrArg₂ (· ++ ·) String.toList_ofList String.toList_ofList)

theorem upper437_spec :
    upper437.length = 128 ∧ ∀ c ∈ upper437, 128 ≤ c.toNat := by
  have hall : (upper437.all fun c => decide (128 ≤ c.toNat)) = true := by
    rw [upper437_eq]
    decide +kernel
  refine ⟨?_, fun c hc => of_decide_eq_true (List.all_eq_true.mp hall c hc)⟩
  rw [upper437_eq]
  decide +kernel

theorem char437_lt {b : UInt8} (h : (char437 b).toNat < 128) :
    b = UInt8.ofNat (char437 b).toNat := by
  have hbound := b.toNat_lt
  rw [char437] at h ⊢
  split at h
  · next hlow =>
    have hsmall : b.toNat < 128 := UInt8.lt_iff_toNat_lt.mp hlow
    have hvalid : b.toNat.isValidChar := Or.inl (by omega)
    have hchar : (Char.ofNat b.toNat).toNat = b.toNat := by
      rw [Char.ofNat, dif_pos hvalid]
      rfl
    rw [if_pos hlow, hchar, UInt8.ofNat_toNat]
  · have hplace : b.toNat - 128 < upper437.length := by
      rw [upper437_spec.1]
      omega
    rw [List.getD_eq_getElem _ _ hplace] at h
    exact absurd h (not_lt.mpr (upper437_spec.2 _ (List.getElem_mem hplace)))

/-- The bytes that are decoded into an ASCII name. -/
theorem eq_asciiBytes_of_decodeName {name : String} {bytes : Bytes}
    (hascii : ∀ c ∈ name.toList, 0 < c.toNat ∧ c.toNat < 128)
    (h : decodeName 0 bytes = some name) : bytes = asciiBytes name := by
  have hflag : bit 0 11 = false := by decide
  rw [decodeName, hflag, if_neg Bool.false_ne_true] at h
  have hchars : name.toList = bytes.map char437 := by
    rw [← Option.some.inj h, String.toList_ofList]
  rw [asciiBytes, hchars, List.map_map]
  refine (List.map_id bytes).symm.trans (List.map_congr_left fun b hb => ?_)
  exact char437_lt (hascii _ (hchars ▸ List.mem_map_of_mem hb)).2

theorem length_asciiBytes (name : String) :
    (asciiBytes name).length = name.length := by
  rw [asciiBytes, List.length_map, String.length_toList]

/-! ## Dates -/

theorem dosDate_ofDos (d t : Nat) : (DateTime.ofDos d t).dosDate = d := by
  have hyear : d / 512 + 1980 - 1980 = d / 512 := Nat.add_sub_cancel _ _
  have hday : d % 32 < 2 ^ 5 := Nat.mod_lt _ (by decide)
  have hmonth : (d / 32 % 16) <<< 5 ||| d % 32 < 2 ^ 9 := by
    rw [← Nat.shiftLeft_add_eq_or_of_lt hday, Nat.shiftLeft_eq]
    omega
  rw [DateTime.dosDate, DateTime.ofDos]
  simp only [hyear]
  rw [Nat.or_assoc, ← Nat.shiftLeft_add_eq_or_of_lt hmonth,
    ← Nat.shiftLeft_add_eq_or_of_lt hday, Nat.shiftLeft_eq, Nat.shiftLeft_eq]
  omega

theorem dosTime_ofDos (d t : Nat) : (DateTime.ofDos d t).dosTime = t := by
  have hsecond : t % 32 * 2 / 2 = t % 32 := Nat.mul_div_cancel _ (by decide)
  have hlow : t % 32 < 2 ^ 5 := Nat.mod_lt _ (by decide)
  have hminute : (t / 32 % 64) <<< 5 ||| t % 32 < 2 ^ 11 := by
    rw [← Nat.shiftLeft_add_eq_or_of_lt hlow, Nat.shiftLeft_eq]
    omega
  rw [DateTime.dosTime, DateTime.ofDos]
  simp only [hsecond]
  rw [Nat.or_assoc, ← Nat.shiftLeft_add_eq_or_of_lt hminute,
    ← Nat.shiftLeft_add_eq_or_of_lt hlow, Nat.shiftLeft_eq, Nat.shiftLeft_eq]
  omega

/-! ## Headers -/

section Headers

variable {x : ZipInfo} {data : Bytes}

/-- A header with the fields of an entry and its name behind it is the one that
is written. -/
theorem fileHeader_of_fields (hx : Plain x) (hlength : 30 ≤ data.length)
    (hfields : structUnpack structFileHeader data = headerFields x)
    (hname : (data.drop 30).take x.filename.length = asciiBytes x.filename) :
    fileHeader x = some (data.take (30 + x.filename.length)) := by
  have hpacked := structPack_structUnpack
    [(4, stringFileHeader), (1, x.extractVersion), (1, x.reserved),
      (2, x.flagBits), (2, x.compressType), (2, x.dateTime.dosTime),
      (2, x.dateTime.dosDate), (4, x.crc), (4, x.compressSize),
      (4, x.fileSize), (2, x.filename.length), (2, 0)] hlength hfields
  have hsize : (asciiBytes x.filename).length = x.filename.length :=
    length_asciiBytes _
  rw [fileHeader, encodeName_ascii hx.ascii, hx.extra]
  simp only [hsize, List.length_nil]
  rw [hpacked, Option.map_some, List.append_nil, List.take_add, hname]
  rfl

theorem zip64Sizes_extra {y : ZipInfo} (h : zip64Sizes data x = .ok y) :
    y.extra = x.extra := by
  simp only [zip64Sizes, bind, Except.bind] at h
  grind

theorem decodeExtra_extra {n : Nat} {extra : Bytes} {y : ZipInfo}
    (h : decodeExtra n extra x = .ok y) : y.extra = x.extra := by
  induction n generalizing extra x with
  | zero =>
      rw [decodeExtra] at h
      rw [← Except.ok.inj h]
  | succ n ih =>
      rw [decodeExtra] at h
      split at h
      · rw [← Except.ok.inj h]
      · split at h
        · cases h
        · split at h
          · exact ih h
          · split at h
            · cases h
            · next z hz => exact (ih h).trans (zip64Sizes_extra hz)

/-- An entry without an extra field is what its fields say. -/
theorem readEntry_eq_ok (h : readEntry 0 data = .ok x) (hextra : x.extra = []) :
    46 ≤ data.length ∧ fieldsAt structCentralDir data 0 = stringCentralDir ∧
      ∃ name, decodeName (fieldsAt structCentralDir data 5)
          ((data.drop 46).take (fieldsAt structCentralDir data 12)) =
            some name ∧
        x = entryOf data name []
          ((data.drop (46 + fieldsAt structCentralDir data 12 +
            fieldsAt structCentralDir data 13)).take
              (fieldsAt structCentralDir data 14)) := by
  rw [readEntry] at h
  split at h
  · cases h
  · next hfull =>
    rw [not_not, List.length_take] at hfull
    split at h
    · cases h
    · next hsignature =>
      refine ⟨by omega, not_not.mp hsignature, ?_⟩
      split at h
      · cases h
      · next name hname =>
        refine ⟨name, hname, ?_⟩
        split at h
        · cases h
        · split at h
          · cases h
          · next y hy =>
            have hx : x = y := by
              rw [← Except.ok.inj h, Int.add_zero]
            have hnone := (hx ▸ decodeExtra_extra hy).symm.trans hextra
            rw [entryOf] at hnone
            simp only at hnone
            rw [hnone, decodeExtra_nil] at hy
            rw [hx, ← Except.ok.inj hy]

theorem length_structUnpack (format : List Nat) (bytes : Bytes) :
    (structUnpack format bytes).length = format.length := by
  induction format generalizing bytes with
  | nil => rfl
  | cons width format ih =>
      rw [structUnpack, List.length_cons, ih, List.length_cons]

theorem eq_map_getD {fields : List Nat} {n : Nat} (h : fields.length = n) :
    fields = (List.range n).map (fields.getD · 0) := by
  refine List.ext_getElem ?_ ?_
  · rw [List.length_map, List.length_range, h]
  · intro i hi _
    simp [hi]

/-- The fields of an entry, by its own account. -/
theorem structUnpack_entryOf (data : Bytes) (name : String)
    (extra comment : Bytes) :
    structUnpack structCentralDir data =
      [fieldsAt structCentralDir data 0,
        (entryOf data name extra comment).createVersion,
        (entryOf data name extra comment).createSystem,
        (entryOf data name extra comment).extractVersion,
        (entryOf data name extra comment).reserved,
        (entryOf data name extra comment).flagBits,
        (entryOf data name extra comment).compressType,
        (entryOf data name extra comment).dateTime.dosTime,
        (entryOf data name extra comment).dateTime.dosDate,
        (entryOf data name extra comment).crc,
        (entryOf data name extra comment).compressSize,
        (entryOf data name extra comment).fileSize,
        fieldsAt structCentralDir data 12, fieldsAt structCentralDir data 13,
        fieldsAt structCentralDir data 14,
        (entryOf data name extra comment).volume,
        (entryOf data name extra comment).internalAttr,
        (entryOf data name extra comment).externalAttr,
        (entryOf data name extra comment).headerOffset.toNat] := by
  simp only [entryOf, dosDate_ofDos, dosTime_ofDos, Int.toNat_natCast]
  exact eq_map_getD (length_structUnpack _ _)
/-- The fields of an entry as they are written. -/
def centralFields (x : ZipInfo) : List (Nat × Nat) :=
  [(4, stringCentralDir), (1, x.createVersion), (1, x.createSystem),
    (1, x.extractVersion), (1, x.reserved), (2, x.flagBits),
    (2, x.compressType), (2, x.dateTime.dosTime), (2, x.dateTime.dosDate),
    (4, x.crc), (4, x.compressSize), (4, x.fileSize), (2, x.filename.length),
    (2, 0), (2, 0), (2, 0), (2, x.internalAttr), (4, x.externalAttr),
    (4, x.headerOffset.toNat)]

theorem widths_centralFields (x : ZipInfo) :
    (centralFields x).map (·.1) = structCentralDir := rfl

theorem sum_centralFields (x : ZipInfo) :
    ((centralFields x).map (·.1)).sum = 46 := by
  rw [widths_centralFields]
  rfl

/-- Where an entry takes its name and nothing more, it is the one that is
written. -/
theorem centralHeader_of_entry (hx : Plain x) (hflags : x.flagBits = 0)
    (h : readEntry 0 data = .ok x)
    (hlength : entryLength data = 46 + x.filename.length) :
    centralHeader x = some (data.take (46 + x.filename.length)) := by
  obtain ⟨hfull, hsignature, name, hdecode, hentry⟩ :=
    readEntry_eq_ok h hx.extra
  have hname : name = x.filename := by
    rw [← hx.orig, hentry, entryOf]
  have hbits : fieldsAt structCentralDir data 5 = 0 := by
    rw [← hflags, hentry, entryOf]
  rw [hbits, hname] at hdecode
  have hbytes := eq_asciiBytes_of_decodeName hx.ascii hdecode
  have hsize := congrArg List.length hbytes
  rw [List.length_take, length_asciiBytes] at hsize
  rw [entryLength] at hlength
  have hnameLength : fieldsAt structCentralDir data 12 = x.filename.length := by
    omega
  have hextraLength : fieldsAt structCentralDir data 13 = 0 := by omega
  have hcommentLength : fieldsAt structCentralDir data 14 = 0 := by omega
  have hfields := structUnpack_entryOf data name []
    ((data.drop (46 + fieldsAt structCentralDir data 12 +
      fieldsAt structCentralDir data 13)).take
        (fieldsAt structCentralDir data 14))
  rw [← hentry, hsignature, hnameLength, hextraLength, hcommentLength,
    hx.volume] at hfields
  have hpacked : structPack (centralFields x) = some (data.take 46) := by
    rw [← sum_centralFields x]
    refine structPack_structUnpack (centralFields x) ?_ ?_
    · rw [sum_centralFields]
      exact hfull
    · rw [widths_centralFields, hfields]
      rfl
  have hsize : (asciiBytes x.filename).length = x.filename.length :=
    length_asciiBytes _
  rw [hnameLength] at hbytes
  rw [centralHeader, encodeName_ascii hx.ascii, hx.extra, hx.comment]
  simp only [hsize, List.length_nil]
  rw [centralFields] at hpacked
  rw [hpacked, Option.map_some, List.append_nil, List.append_nil, List.take_add,
    hbytes]

end Headers

/-! ## The directory -/

theorem readEntries_cons_eq_ok {concat : Int} {n left : Nat} {data : Bytes}
    {x : ZipInfo} {infos : List ZipInfo}
    (h : readEntries concat n left data = .ok (x :: infos)) :
    readEntry concat data = .ok x ∧ ∃ m,
      readEntries concat m (left - entryLength data)
        (data.drop (entryLength data)) = .ok infos := by
  cases n with
  | zero =>
      rw [readEntries] at h
      split at h
      · cases h
      · cases h
  | succ n =>
      rw [readEntries] at h
      split at h
      · cases h
      · split at h
        · cases h
        · next y hy =>
          cases hrest : readEntries concat n (left - entryLength data)
              (data.drop (entryLength data)) with
          | error e =>
              rw [hrest] at h
              cases h
          | ok others =>
              rw [hrest] at h
              obtain ⟨rfl, rfl⟩ := List.cons.inj (Except.ok.inj h)
              exact ⟨hy, n, hrest⟩

/-- A directory that is filled is the one that is written. -/
theorem entries_of_filled {infos : List ZipInfo} {data : Bytes} {n : Nat}
    (hinfos : ∀ x ∈ infos, Entry x)
    (h : readEntries 0 n data.length data = .ok infos)
    (hfilled : Filled data infos) :
    ∃ entries, infos.mapM centralHeader = some entries ∧
      entries.flatten = data := by
  induction infos generalizing n data with
  | nil =>
      rw [Filled] at hfilled
      exact ⟨[], rfl, hfilled.symm⟩
  | cons x infos ih =>
      obtain ⟨hlength, hfilled⟩ := hfilled
      obtain ⟨hentry, m, hrest⟩ := readEntries_cons_eq_ok h
      have hx : Entry x := hinfos x List.mem_cons_self
      have hheader := centralHeader_of_entry hx.toPlain hx.flags hentry hlength
      rw [← List.length_drop] at hrest
      obtain ⟨others, hothers, hflat⟩ := ih
        (fun y hy => hinfos y (List.mem_cons_of_mem _ hy)) hrest hfilled
      refine ⟨data.take (46 + x.filename.length) :: others, ?_, ?_⟩
      · rw [List.mapM_cons, hheader, hothers]
        rfl
      · rw [List.flatten_cons, hflat, hlength, List.take_append_drop]

/-! ## Where members end -/

theorem assignEnds_bare (e : Int) (l : List (ZipInfo × Nat)) :
    (assignEnds e l).map (fun p => (p.1.bare, p.2)) =
      l.map fun p => (p.1.bare, p.2) := by
  induction l generalizing e with
  | nil => rfl
  | cons p l ih =>
      rw [assignEnds, List.map_cons, List.map_cons, ih]
      rfl

/-- Whatever their order, the ends are all that is added. -/
theorem setEndOffsets_bare (startDir : Int) (infos : List ZipInfo) :
    (setEndOffsets startDir infos).map ZipInfo.bare =
      infos.map ZipInfo.bare := by
  have hperm := (List.perm_insertionSort (fun a b => a.2 ≤ b.2)
    (assignEnds startDir (infos.zipIdx.insertionSort fun a b =>
      b.1.headerOffset ≤ a.1.headerOffset))).map fun p => (p.1.bare, p.2)
  rw [assignEnds_bare] at hperm
  have hall := hperm.trans ((List.perm_insertionSort
    (fun a b : ZipInfo × Nat => b.1.headerOffset ≤ a.1.headerOffset)
      infos.zipIdx).map fun p => (p.1.bare, p.2))
  have hindex : ∀ p ∈ infos.zipIdx.map (fun p => (p.1.bare, p.2)),
      (infos[p.2]?).map ZipInfo.bare = some p.1 := by
    intro p hp
    obtain ⟨q, hq, rfl⟩ := List.mem_map.mp hp
    rw [List.mem_zipIdx_iff_getElem?.mp hq]
    rfl
  have hone : ∀ p q : ZipInfo × Nat,
      p ∈ infos.zipIdx.map (fun p => (p.1.bare, p.2)) →
      q ∈ infos.zipIdx.map (fun p => (p.1.bare, p.2)) →
      p.2 ≤ q.2 → q.2 ≤ p.2 → p = q := by
    intro p q hp hq hpq hqp
    have hsame : p.2 = q.2 := le_antisymm hpq hqp
    have hfirst := hindex p hp
    rw [hsame, hindex q hq] at hfirst
    exact Prod.ext (Option.some.inj hfirst).symm hsame
  have hsorted : (((assignEnds startDir (infos.zipIdx.insertionSort fun a b =>
      b.1.headerOffset ≤ a.1.headerOffset)).insertionSort
        fun a b => a.2 ≤ b.2).map fun p => (p.1.bare, p.2)).Pairwise
          fun p q : ZipInfo × Nat => p.2 ≤ q.2 :=
    List.pairwise_map.mpr (List.pairwise_insertionSort
      (fun p q : ZipInfo × Nat => p.2 ≤ q.2) _)
  have hcounted : (infos.zipIdx.map fun p => (p.1.bare, p.2)).Pairwise
      fun p q : ZipInfo × Nat => p.2 ≤ q.2 := by
    have hup : (infos.zipIdx.map (·.2)).Pairwise (· < ·) := by
      rw [List.zipIdx_map_snd]
      exact List.pairwise_lt_range'
    exact List.pairwise_map.mpr
      ((List.pairwise_map.mp hup).imp fun hlt => le_of_lt hlt)
  have hsame := List.Perm.eq_of_pairwise
    (fun p q hp hq => hone p q (hall.subset hp) hq) hsorted hcounted hall
  have hfirst := congrArg (List.map Prod.fst) hsame
  rw [List.map_map, List.map_map] at hfirst
  rw [setEndOffsets, List.map_map]
  refine hfirst.trans ?_
  have hfst := congrArg (List.map ZipInfo.bare) (List.zipIdx_map_fst 0 infos)
  rw [List.map_map] at hfst
  exact hfst

/-! ## The members -/

section Members

variable {file data : Bytes} {x : ZipInfo}

/-- A member is read from behind its header. -/
theorem readMember_eq_ok (h : readMember file x = .ok data)
    (hx : Entry x.bare) (hsizes : x.compressSize = x.fileSize)
    (hfields : structUnpack structFileHeader (file.drop x.headerOffset.toNat) =
      headerFields x) :
    30 ≤ (file.drop x.headerOffset.toNat).length ∧
      ((file.drop x.headerOffset.toNat).drop 30).take x.filename.length =
        asciiBytes x.filename ∧
      (file.drop (x.headerOffset.toNat + 30 + x.filename.length)).take
        x.compressSize = data ∧
      data.length = x.compressSize := by
  have hnameLength : fieldsAt structFileHeader
      (file.drop x.headerOffset.toNat) 10 = x.filename.length := by
    rw [fieldsAt, hfields]
    rfl
  have hextraLength : fieldsAt structFileHeader
      (file.drop x.headerOffset.toNat) 11 = 0 := by
    rw [fieldsAt, hfields]
    rfl
  have hflags : fieldsAt structFileHeader
      (file.drop x.headerOffset.toNat) 3 = 0 := by
    rw [fieldsAt, hfields]
    exact hx.flags
  rw [readMember, hflags, hnameLength] at h
  split at h
  · cases h
  · split at h
    · cases h
    · next hfull =>
      rw [not_not, List.length_take] at hfull
      split at h
      · cases h
      · split at h
        · cases h
        · split at h
          · cases h
          · next name hname =>
            split at h
            · cases h
            · next horig =>
              have hfilename : name = x.filename :=
                (not_not.mp horig).trans hx.orig
              rw [hfilename] at hname
              have hbytes : (file.drop (x.headerOffset.toNat + 30)).take
                  x.filename.length = asciiBytes x.filename :=
                eq_asciiBytes_of_decodeName hx.ascii hname
              have hstart : dataStart file x.headerOffset.toNat =
                  x.headerOffset.toNat + 30 + x.filename.length := by
                rw [dataStart, hnameLength, hextraLength, hbytes,
                  length_asciiBytes, List.take_zero, List.length_nil,
                  Nat.add_zero]
              rw [hstart] at h
              refine ⟨by omega, by rw [List.drop_drop, hbytes], ?_⟩
              split at h
              · cases h
              · split at h
                · cases h
                · split at h
                  · cases h
                  · rw [readStored] at h
                    split at h
                    · cases h
                    · split at h
                      · cases h
                      · next hshort =>
                        split at h
                        · cases h
                        · rw [← hsizes, List.take_take, min_self] at h
                          rw [← hsizes, min_self, not_lt] at hshort
                          rw [← Except.ok.inj h]
                          refine ⟨rfl, le_antisymm ?_ hshort⟩
                          exact List.length_take_le _ _

/-- What is read has the checksum and the size that the directory gives. -/
theorem spec_of_readMember (h : readMember file x = .ok data)
    (hsizes : x.compressSize = x.fileSize) :
    crc32 data = x.crc ∧ data.length = x.compressSize := by
  obtain ⟨start, hstored⟩ : ∃ start, readStored file x start = .ok data := by
    rw [readMember] at h
    split at h
    · cases h
    · split at h
      · cases h
      · split at h
        · cases h
        · split at h
          · cases h
          · split at h
            · cases h
            · split at h
              · cases h
              · split at h
                · cases h
                · split at h
                  · cases h
                  · split at h
                    · cases h
                    · exact ⟨_, h⟩
  rw [readStored] at hstored
  split at hstored
  · cases hstored
  · split at hstored
    · cases hstored
    · next hshort =>
      split at hstored
      · cases hstored
      · next hcrc =>
        rw [← hsizes, min_self, not_lt] at hshort
        rw [← hsizes, List.take_take, min_self] at hstored hcrc
        rw [← Except.ok.inj hstored]
        exact ⟨not_not.mp hcrc, le_antisymm (List.length_take_le _ _) hshort⟩

end Members

/-- An entry of an archive that is read, and the member it would be written
from. -/
structure Reads (file : Bytes) (x : ZipInfo) (m : ZipInfo × Bytes) : Prop where
  plain : Plain m.1
  entry : x.bare = m.1.written m.2 x.headerOffset.toNat
  data : readMember file x = .ok m.2

theorem drop_eq_append (l : Bytes) (i n : Nat) :
    l.drop i = (l.drop i).take n ++ l.drop (i + n) := by
  rw [← List.drop_drop, List.take_append_drop]

theorem laid_of_adjacent {file : Bytes} {infos : List ZipInfo}
    {members : List (ZipInfo × Bytes)} {start stop : Nat}
    (hreads : List.Forall₂ (Reads file) infos members)
    (hheaders : ∀ x ∈ infos, structUnpack structFileHeader
      (file.drop x.headerOffset.toNat) = headerFields x)
    (h : Adjacent start infos stop) :
    ∃ out, Laid start members (infos.map ZipInfo.bare) out ∧
      file.drop start = out ++ file.drop stop ∧ stop = start + out.length := by
  induction hreads generalizing start with
  | nil =>
      rw [Adjacent] at h
      exact ⟨[], ⟨rfl, rfl⟩, by rw [h, List.nil_append], h.symm⟩
  | @cons x m infos members hread hreads ih =>
      obtain ⟨hstart, hrest⟩ := h
      have hplace : x.headerOffset.toNat = start := by
        rw [hstart, Int.toNat_natCast]
      have hwritten : x.bare = m.1.written m.2 start := hplace ▸ hread.entry
      have hentry : Entry x.bare := hwritten ▸ plain_written hread.plain _ _
      have hcompress : x.compressSize = m.2.length :=
        congrArg ZipInfo.compressSize hwritten
      have hsize : x.fileSize = m.2.length := congrArg ZipInfo.fileSize hwritten
      have hfields := hheaders x List.mem_cons_self
      obtain ⟨hfull, hname, hdata, -⟩ := readMember_eq_ok hread.data hentry
        (hcompress.trans hsize.symm) hfields
      rw [hplace] at hfull hname hdata hfields
      have hheader : fileHeader x.bare =
          some ((file.drop start).take (30 + x.filename.length)) :=
        fileHeader_of_fields hentry.toPlain hfull hfields hname
      have hlength : ((file.drop start).take
          (30 + x.filename.length)).length = 30 + x.filename.length := by
        rw [length_fileHeader hentry.toPlain hheader, length_asciiBytes]
        rfl
      have hnext : start + 30 + x.filename.length + x.compressSize =
          start + ((file.drop start).take (30 + x.filename.length)).length +
            m.2.length := by
        rw [hlength, hcompress]
        omega
      rw [hnext] at hrest
      obtain ⟨out, hlaid, hdrop, hstop⟩ := ih
        (fun y hy => hheaders y (List.mem_cons_of_mem _ hy)) hrest
      refine ⟨(file.drop start).take (30 + x.filename.length) ++ m.2 ++ out,
        ⟨_, _, out, hwritten ▸ hheader, ?_, rfl, hlaid⟩, ?_, ?_⟩
      · rw [List.map_cons, hwritten]
      · have hsplit : file.drop start =
            (file.drop start).take (30 + x.filename.length) ++
              ((file.drop (start + 30 + x.filename.length)).take
                x.compressSize ++
                  file.drop (start + 30 + x.filename.length +
                    x.compressSize)) := by
          rw [← drop_eq_append, Nat.add_assoc start, ← drop_eq_append]
        rw [hdata, hnext, hdrop] at hsplit
        rw [List.append_assoc, List.append_assoc]
        exact hsplit
      · rw [hstop]
        simp only [List.length_append]
        omega

/-! ## Sizes -/

theorem stop_le_of_adjacent (bound : Nat) {infos : List ZipInfo}
    {start stop : Nat} (h : Adjacent start infos stop)
    (hbound : ∀ x ∈ infos, 30 + x.filename.length + x.compressSize ≤ bound) :
    stop ≤ start + infos.length * bound := by
  induction infos generalizing start with
  | nil =>
      rw [Adjacent] at h
      omega
  | cons x infos ih =>
      obtain ⟨hx, hrest⟩ := List.forall_mem_cons.mp hbound
      have hstop := ih h.2 hrest
      rw [List.length_cons, Nat.succ_mul]
      omega

theorem length_le_of_filled (bound : Nat) {infos : List ZipInfo}
    {data : Bytes} (h : Filled data infos)
    (hbound : ∀ x ∈ infos, 46 + x.filename.length ≤ bound) :
    data.length ≤ infos.length * bound := by
  induction infos generalizing data with
  | nil =>
      rw [Filled] at h
      rw [h]
      exact Nat.zero_le _
  | cons x infos ih =>
      obtain ⟨hx, hrest⟩ := List.forall_mem_cons.mp hbound
      have hdata := ih h.2 hrest
      have hlength := h.1
      rw [List.length_drop] at hdata
      rw [List.length_cons, Nat.succ_mul]
      omega

theorem offset_of_adjacent {infos : List ZipInfo} {start stop : Nat}
    (h : Adjacent start infos stop) : ∀ x ∈ infos, 0 ≤ x.headerOffset := by
  induction infos generalizing start with
  | nil => exact nofun
  | cons x infos ih =>
      refine List.forall_mem_cons.mpr ⟨?_, ih h.2⟩
      rw [h.1]
      exact Int.natCast_nonneg start

/-! ## The writer -/

/-- Members that fit are laid. -/
theorem foldlM_of_laid {members : List (ZipInfo × Bytes)}
    {infos : List ZipInfo} {out : Bytes} {w : Writer}
    (h : Laid w.out.length members infos out)
    (hdata : ∀ m ∈ members, m.2.length ≤ 2 ^ 30)
    (hcount : w.filelist.length + members.length ≤ zipFilecountLimit)
    (hout : w.out.length + out.length ≤ zip64Limit) :
    members.foldlM (fun w m => writestr m.1 m.2 w) w =
      .ok ⟨w.out ++ out, w.filelist ++ infos⟩ := by
  induction members generalizing w infos out with
  | nil =>
      rw [h.1, h.2, List.append_nil, List.append_nil]
      rfl
  | cons m members ih =>
      obtain ⟨header, infos', out', hheader, rfl, rfl, hlaid⟩ := h
      have hm := hdata m List.mem_cons_self
      rw [List.length_cons] at hcount
      rw [List.length_append, List.length_append] at hout
      have hfits : ¬ (m.2.length * 105 > zip64Limit * 100 ∨
          w.filelist.length ≥ zipFilecountLimit ∨ m.2.length > zip64Limit ∨
          w.out.length > zip64Limit) := by
        rw [zip64Limit] at hout ⊢
        omega
      have hstep : writestr m.1 m.2 w =
          .ok ⟨w.out ++ header ++ m.2,
            w.filelist ++ [m.1.written m.2 w.out.length]⟩ := by
        rw [writestr, if_neg hfits, hheader]
      have hlength : (w.out ++ header ++ m.2).length =
          w.out.length + header.length + m.2.length := by
        rw [List.length_append, List.length_append]
      refine foldlM_cons_eq_ok.mpr ⟨_, hstep, ?_⟩
      rw [← hlength] at hlaid
      have hrest := ih (w := ⟨w.out ++ header ++ m.2,
        w.filelist ++ [m.1.written m.2 w.out.length]⟩) hlaid
        (fun q hq => hdata q (List.mem_cons_of_mem _ hq))
        (by rw [List.length_append, List.length_singleton]; omega)
        (by rw [hlength]; omega)
      rw [hrest]
      simp only [List.append_assoc, List.singleton_append]

/-- What `openZip` reads without ZIP64 records. -/
theorem openZip_eq_ok {file : Bytes} {archive : ZipFile}
    (h : openZip file = .ok archive) :
    ∃ endrec infos, endRecData file = .ok endrec ∧
      readEntries endrec.concat
        ((file.drop (endrec.offset + endrec.concat).toNat).take
          endrec.size).length endrec.size
        ((file.drop (endrec.offset + endrec.concat).toNat).take
          endrec.size) = .ok infos ∧
      archive = ⟨file, endrec.comment,
        setEndOffsets (endrec.offset + endrec.concat) infos⟩ := by
  unfold openZip at h
  cases hend : endRecData file with
  | error e =>
      rw [hend] at h
      exact nomatch h
  | ok endrec =>
      rw [hend] at h
      dsimp only at h
      split at h
      · exact nomatch h
      · refine ⟨endrec, ?_⟩
        generalize hslice : (file.drop
          (endrec.offset + endrec.concat).toNat).take endrec.size = slice at h ⊢
        cases hinfos : readEntries endrec.concat slice.length endrec.size
            slice with
        | error e =>
            rw [hinfos] at h
            exact nomatch h
        | ok infos =>
            rw [hinfos] at h
            exact ⟨infos, rfl, rfl, (Except.ok.inj h).symm⟩

def endFields (count size offset : Nat) : List (Nat × Nat) :=
  [(4, stringEndArchive), (2, 0), (2, 0), (2, count), (2, count), (4, size),
    (4, offset), (2, 0)]

theorem widths_endFields (count size offset : Nat) :
    (endFields count size offset).map (·.1) = structEndArchive := rfl

theorem sum_endFields (count size offset : Nat) :
    ((endFields count size offset).map (·.1)).sum = 22 := by
  rw [widths_endFields]
  rfl

theorem endRecord_of_fields {record : Bytes} {count size offset : Nat}
    (hlength : record.length = 22)
    (h : structUnpack structEndArchive record =
      [stringEndArchive, 0, 0, count, count, size, offset, 0]) :
    endRecord count size offset = some record := by
  have hpacked : structPack (endFields count size offset) =
      some (record.take 22) := by
    rw [← sum_endFields count size offset]
    refine structPack_structUnpack (endFields count size offset) ?_ ?_
    · rw [sum_endFields, hlength]
    · rw [widths_endFields, h]
      rfl
  rw [List.take_of_length_le (le_of_eq hlength)] at hpacked
  exact hpacked

theorem bare_of_none {x : ZipInfo} (h : x.endOffset = none) : x.bare = x := by
  cases x
  cases h
  rfl

theorem bare_of_readEntries {n left : Nat} {data : Bytes}
    {infos : List ZipInfo} (h : readEntries 0 n left data = .ok infos)
    (hextra : ∀ x ∈ infos, x.extra = []) :
    infos.map ZipInfo.bare = infos := by
  induction infos generalizing n left data with
  | nil => rfl
  | cons x infos ih =>
      obtain ⟨hentry, m, hrest⟩ := readEntries_cons_eq_ok h
      obtain ⟨-, -, name, -, hx⟩ :=
        readEntry_eq_ok hentry (hextra x List.mem_cons_self)
      have hnone : x.endOffset = none := by rw [hx, entryOf]
      rw [List.map_cons, bare_of_none hnone,
        ih hrest fun y hy => hextra y (List.mem_cons_of_mem _ hy)]

theorem filled_bare {infos : List ZipInfo} {data : Bytes} :
    Filled data (infos.map ZipInfo.bare) ↔ Filled data infos := by
  induction infos generalizing data with
  | nil => exact Iff.rfl
  | cons x infos ih => exact and_congr Iff.rfl ih

theorem Tight.concat {file : Bytes} {endrec : EndRecord}
    {infos : List ZipInfo} (h : Tight file endrec infos) :
    endrec.concat = 0 := by
  have hplain : stringEndArchive ≠ stringEndArchive64 := by decide
  rw [EndRecord.concat, h.noZip64, if_neg hplain, h.directory]
  omega

/-- An archive without room is written from its members. -/
theorem writeZip_of_tight {file : Bytes} {endrec : EndRecord}
    {archive : ZipFile} {members : List (ZipInfo × Bytes)}
    (hend : endRecData file = .ok endrec) (hopen : openZip file = .ok archive)
    (h : Tight file endrec archive.infolist)
    (hreads : List.Forall₂ (Reads file) archive.infolist members)
    (hcount : members.length ≤ zipFilecountLimit)
    (hdata : ∀ m ∈ members, m.2.length ≤ 2 ^ 30)
    (hsize : file.length ≤ 2 ^ 30) : writeZip members = .ok file := by
  have hlast := h.last
  have hplace := h.directory
  obtain ⟨out, hlaid, hfile, hoffset⟩ :=
    laid_of_adjacent hreads h.headers h.members
  rw [List.drop_zero] at hfile
  rw [Nat.zero_add] at hoffset
  have hslice : ((file.drop endrec.offset).take endrec.size).length =
      endrec.size := by
    rw [List.length_take, List.length_drop]
    omega
  have hentry : ∀ x ∈ archive.infolist.map ZipInfo.bare, Entry x := by
    have hboth : List.Forall₂ (fun x m => Entry x.bare ∧ Reads file x m)
        archive.infolist members :=
      hreads.imp fun x m hread =>
        ⟨hread.entry ▸ plain_written hread.plain _ _, hread⟩
    intro y hy
    obtain ⟨x, hx, rfl⟩ := List.mem_map.mp hy
    exact ((List.forall₂_and_left _ _).mp hboth).1 x hx
  obtain ⟨entries, hentries, hflat⟩ : ∃ entries,
      (archive.infolist.map ZipInfo.bare).mapM centralHeader = some entries ∧
        entries.flatten = (file.drop endrec.offset).take endrec.size := by
    obtain ⟨endrec', infos, hend', hinfos, harchive⟩ := openZip_eq_ok hopen
    obtain rfl := Except.ok.inj (hend.symm.trans hend')
    rw [h.concat, Int.add_zero, Int.toNat_natCast, hslice] at hinfos
    have hbare : archive.infolist.map ZipInfo.bare =
        infos.map ZipInfo.bare := by
      rw [harchive]
      exact setEndOffsets_bare _ _
    have hfilled := filled_bare.mpr h.filled
    rw [hbare] at hentry hfilled ⊢
    have hsame : infos.map ZipInfo.bare = infos :=
      bare_of_readEntries hinfos fun x hx =>
        (hentry _ (List.mem_map_of_mem hx)).extra
    rw [hsame] at hentry hfilled ⊢
    refine entries_of_filled (n := endrec.size) hentry ?_ hfilled
    rw [hslice]
    exact hinfos
  have hrecord : (file.drop endrec.location).length = 22 := by
    rw [List.length_drop]
    omega
  have hending := endRecord_of_fields hrecord h.ending
  have hwrite := foldlM_of_laid (w := {}) hlaid hdata
    (by rw [List.length_nil, Nat.zero_add]; exact hcount)
    (by rw [zip64Limit, List.length_nil]; omega)
  have hinfos : (archive.infolist.map ZipInfo.bare).length =
      members.length := by
    rw [List.length_map, hreads.length_eq]
  have hroom : ¬ ((archive.infolist.map ZipInfo.bare).length >
      zipFilecountLimit ∨ out.length > zip64Limit ∨
        entries.flatten.length > zip64Limit) := by
    rw [hflat, hslice, hinfos, zip64Limit]
    omega
  have hparts : file = out ++ entries.flatten ++
      file.drop endrec.location := by
    rw [hflat, hplace, List.append_assoc, ← drop_eq_append]
    exact hfile
  rw [writeZip, hwrite]
  simp only [closeZip, List.nil_append, hentries]
  rw [if_neg hroom, List.length_map, hflat, hslice, ← hoffset, hending]
  rw [← hflat]
  exact congrArg Except.ok hparts.symm

/-! ## What is written leaves no room -/

section Written

variable {members : List (ZipInfo × Bytes)} {infos : List ZipInfo}
  {out : Bytes}

theorem adjacent_withEnds {e : Int} {start stop : Nat} :
    Adjacent start (withEnds e infos) stop ↔ Adjacent start infos stop := by
  induction infos generalizing start with
  | nil => exact Iff.rfl
  | cons x infos ih => exact and_congr Iff.rfl ih

theorem filled_withEnds {e : Int} {data : Bytes} :
    Filled data (withEnds e infos) ↔ Filled data infos := by
  induction infos generalizing data with
  | nil => exact Iff.rfl
  | cons x infos ih => exact and_congr Iff.rfl ih

theorem mem_withEnds {e : Int} {x : ZipInfo} (h : x ∈ withEnds e infos) :
    ∃ y ∈ infos, x.bare = y.bare := by
  induction infos with
  | nil => exact nomatch h
  | cons y infos ih =>
      rcases List.mem_cons.mp h with rfl | h
      · exact ⟨y, List.mem_cons_self, rfl⟩
      · obtain ⟨z, hz, hsame⟩ := ih h
        exact ⟨z, List.mem_cons_of_mem _ hz, hsame⟩

theorem length_withEnds {e : Int} :
    (withEnds e infos).length = infos.length := by
  induction infos with
  | nil => rfl
  | cons x infos ih => rw [withEnds, List.length_cons, ih, List.length_cons]

theorem adjacent_of_laid {offset : Nat} (hplain : ∀ m ∈ members, Plain m.1)
    (h : Laid offset members infos out) :
    Adjacent offset infos (offset + out.length) := by
  induction members generalizing infos offset out with
  | nil =>
      rw [h.1, h.2]
      rfl
  | cons m members ih =>
      obtain ⟨header, infos', out', hheader, rfl, rfl, hrest⟩ := h
      have hlength := length_fileHeader
        (plain_written (hplain m List.mem_cons_self) m.2 offset).toPlain hheader
      rw [length_asciiBytes] at hlength
      have hnext := ih (fun q hq => hplain q (List.mem_cons_of_mem _ hq)) hrest
      refine ⟨rfl, ?_⟩
      have hstart : offset + 30 + (m.1.written m.2 offset).filename.length +
          (m.1.written m.2 offset).compressSize =
            offset + header.length + m.2.length := by
        rw [hlength]
        exact congrArg (· + m.2.length) (Nat.add_assoc _ _ _)
      have hstop : offset + (header ++ m.2 ++ out').length =
          offset + header.length + m.2.length + out'.length := by
        simp only [List.length_append]
        omega
      rw [hstart, hstop]
      exact hnext

theorem written_of_laid {offset : Nat} (h : Laid offset members infos out) :
    ∀ x ∈ infos, ∃ m ∈ members, ∃ place, x = m.1.written m.2 place := by
  induction members generalizing infos offset out with
  | nil =>
      rw [h.1]
      exact nofun
  | cons m members ih =>
      obtain ⟨header, infos', out', -, rfl, -, hrest⟩ := h
      refine List.forall_mem_cons.mpr
        ⟨⟨m, List.mem_cons_self, offset, rfl⟩, fun x hx => ?_⟩
      obtain ⟨q, hq, hx⟩ := ih hrest x hx
      exact ⟨q, List.mem_cons_of_mem _ hq, hx⟩

theorem headers_of_laid (hplain : ∀ m ∈ members, Plain m.1) (pre : Bytes)
    (h : Laid pre.length members infos out) (post : Bytes) :
    ∀ x ∈ infos, structUnpack structFileHeader
      ((pre ++ (out ++ post)).drop x.headerOffset.toNat) = headerFields x := by
  induction members generalizing infos out pre with
  | nil =>
      rw [h.1]
      exact nofun
  | cons m members ih =>
      obtain ⟨header, infos', out', hheader, rfl, rfl, hrest⟩ := h
      have hentry := plain_written (hplain m List.mem_cons_self) m.2 pre.length
      obtain ⟨record, hbytes, -, hfields⟩ :=
        structUnpack_fileHeader hentry.toPlain hheader
      have hnext : (pre ++ header ++ m.2).length =
          pre.length + header.length + m.2.length := by
        rw [List.length_append, List.length_append]
      rw [← hnext] at hrest
      have hrest := ih (fun q hq => hplain q (List.mem_cons_of_mem _ hq))
        (pre ++ header ++ m.2) hrest
      refine List.forall_mem_cons.mpr ⟨?_, fun x hx => ?_⟩
      · have hplace :
            (m.1.written m.2 pre.length).headerOffset.toNat = pre.length :=
          Int.toNat_natCast _
        rw [hplace, List.drop_left' rfl, hbytes]
        simp only [List.append_assoc]
        rw [hfields, headerFields, length_asciiBytes]
      · have hfile : pre ++ (header ++ m.2 ++ out' ++ post) =
            pre ++ header ++ m.2 ++ (out' ++ post) := by
          simp only [List.append_assoc]
        rw [hfile]
        exact hrest x hx

theorem filled_of_entries {entries : List Bytes}
    (hinfos : ∀ x ∈ infos, Entry x)
    (h : infos.mapM centralHeader = some entries) :
    Filled entries.flatten infos := by
  induction infos generalizing entries with
  | nil =>
      rw [List.mapM_nil] at h
      rw [← Option.some.inj h]
      rfl
  | cons x infos ih =>
      rw [List.mapM_cons] at h
      obtain ⟨bytes, hbytes, h⟩ := Option.bind_eq_some_iff.mp h
      obtain ⟨others, hothers, h⟩ := Option.bind_eq_some_iff.mp h
      have hx : Entry x := hinfos x List.mem_cons_self
      obtain ⟨-, hlength⟩ := readEntry_centralHeader hx.toPlain hx.flags
        hx.offset hbytes 0 others.flatten
      rw [← Option.some.inj h, List.flatten_cons, Filled, hlength,
        length_centralHeader hx.toPlain hbytes]
      refine ⟨rfl, ?_⟩
      rw [List.drop_left' (length_centralHeader hx.toPlain hbytes)]
      exact ih (fun y hy => hinfos y (List.mem_cons_of_mem _ hy)) hothers

/-- An archive that is written from plain members leaves no room. -/
theorem tight_of_parts {directory record : Bytes} {endrec : EndRecord}
    {archive : ZipFile} (hplain : ∀ m ∈ members, Plain m.1)
    (hreserved : ∀ m ∈ members, m.1.reserved = 0)
    (h : Parts members infos out directory record)
    (hlocator : NoLocator (out ++ directory) record)
    (hend : endRecData (out ++ directory ++ record) = .ok endrec)
    (hopen : openZip (out ++ directory ++ record) = .ok archive) :
    Tight (out ++ directory ++ record) endrec archive.infolist := by
  obtain ⟨entries, hentries, hdirectory⟩ := h.entries
  have hinfos := entry_of_laid hplain h.laid
  have hlength : record.length = 22 := by
    rw [length_structPack h.ending]
    rfl
  rw [openZip_parts hplain h hlocator] at hopen
  rw [endRecData_append h.ending hlocator] at hend
  obtain rfl := Except.ok.inj hend
  obtain rfl := Except.ok.inj hopen
  refine ⟨rfl, ?_, List.length_append, ?_, ?_, ?_, ?_, ?_⟩
  · have hadjacent := adjacent_of_laid hplain h.laid
    rw [Nat.zero_add] at hadjacent
    exact adjacent_withEnds.mpr hadjacent
  · rw [List.length_append, hlength]
  · rw [List.drop_left' rfl, length_withEnds]
    have hback := structUnpack_structPack h.ending []
    rw [List.append_nil] at hback
    exact hback
  · have hslice : ((out ++ directory ++ record).drop out.length).take
        directory.length = directory := by
      rw [List.append_assoc, List.drop_left' rfl, List.take_left' rfl]
    rw [hslice, hdirectory]
    exact filled_withEnds.mpr (filled_of_entries hinfos hentries)
  · intro x hx
    obtain ⟨y, hy, hsame⟩ := mem_withEnds hx
    obtain ⟨m, hm, place, hwritten⟩ := written_of_laid h.laid y hy
    have hbare : x.bare = m.1.written m.2 place := by
      rw [hsame, bare_of_none (hinfos y hy).endOffset, hwritten]
    have hentry : Entry x.bare := hbare ▸ plain_written (hplain m hm) _ _
    exact ⟨(congrArg ZipInfo.reserved hbare).trans (hreserved m hm),
      hentry.volume, hentry.orig⟩
  · intro x hx
    obtain ⟨y, hy, hsame⟩ := mem_withEnds hx
    have hheaders := headers_of_laid hplain [] h.laid (directory ++ record) y hy
    rw [List.nil_append, ← List.append_assoc] at hheaders
    have hplace : x.bare.headerOffset = y.bare.headerOffset :=
      congrArg ZipInfo.headerOffset hsame
    have hfields : headerFields x.bare = headerFields y.bare :=
      congrArg headerFields hsame
    have hx : structUnpack structFileHeader ((out ++ directory ++ record).drop
        x.bare.headerOffset.toNat) = headerFields x.bare := by
      rw [hplace, hfields]
      exact hheaders
    exact hx

end Written

end NodeLink.Lib.Zip
