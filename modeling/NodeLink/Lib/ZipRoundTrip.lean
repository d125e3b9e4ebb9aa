import Mathlib
import NodeLink.Lib.Loops
import NodeLink.Lib.Zip

/-!
# What is written is read back

An archive that is written from plain members has these members and no others,
in this order, each with its data. The one thing to watch is the end: twenty
bytes in front of the end record must not look like a ZIP64 locator.
-/

namespace NodeLink.Lib.Zip

open Lib

/-! ## Names and dates -/

/-- A member the writer has nothing to add to, and the reader nothing to
change. -/
structure Plain (x : ZipInfo) : Prop where
  ascii : ∀ c ∈ x.filename.toList, 0 < c.toNat ∧ c.toNat < 128
  orig : x.origFilename = x.filename
  date : DateTime.ofDos x.dateTime.dosDate x.dateTime.dosTime = x.dateTime
  version : x.extractVersion ≤ 63
  stored : x.compressType = 0
  extra : x.extra = []
  comment : x.comment = []
  volume : x.volume = 0
  endOffset : x.endOffset = none

def asciiBytes (name : String) : Bytes :=
  name.toList.map fun c => UInt8.ofNat c.toNat

theorem encodeName_ascii {name : String} {flags : Nat}
    (h : ∀ c ∈ name.toList, 0 < c.toNat ∧ c.toNat < 128) :
    encodeName name flags = (asciiBytes name, flags) := by
  have hall : (name.toList.all fun c => decide (c.toNat < 128)) = true :=
    List.all_eq_true.mpr fun c hc => decide_eq_true (h c hc).2
  rw [encodeName, if_pos hall, asciiBytes]

theorem char437_ascii {c : Char} (h : c.toNat < 128) :
    char437 (UInt8.ofNat c.toNat) = c := by
  have hbyte : (UInt8.ofNat c.toNat).toNat = c.toNat := by
    rw [UInt8.toNat_ofNat']
    omega
  have hlt : UInt8.ofNat c.toNat < 128 := by
    rw [UInt8.lt_iff_toNat_lt, hbyte]
    exact h
  rw [char437, if_pos hlt, hbyte, Char.ofNat_toNat]

theorem decodeName_ascii {name : String}
    (h : ∀ c ∈ name.toList, 0 < c.toNat ∧ c.toNat < 128) :
    decodeName 0 (asciiBytes name) = some name := by
  have hback : (asciiBytes name).map char437 = name.toList := by
    rw [asciiBytes, List.map_map]
    refine (List.map_congr_left fun c hc => ?_).trans (List.map_id _)
    exact char437_ascii (h c hc).2
  have hflag : bit 0 11 = false := by decide
  rw [decodeName, hflag, if_neg Bool.false_ne_true, hback, String.ofList_toList]

theorem truncateName_ascii {name : String}
    (h : ∀ c ∈ name.toList, 0 < c.toNat ∧ c.toNat < 128) :
    truncateName name = name := by
  have hall : name.toList.takeWhile (fun c => decide (c ≠ Char.ofNat 0)) =
      name.toList := by
    refine List.takeWhile_eq_self_iff.mpr ?_
    intro c hc
    rw [decide_eq_true_iff]
    intro hnul
    rw [hnul] at hc
    exact absurd (h _ hc).1 (by decide)
  rw [truncateName, hall, String.ofList_toList]

/-! ## Headers -/

section Headers

variable {x : ZipInfo} {bytes rest : Bytes}

/-- The fields of a directory entry, and its length. -/
theorem structUnpack_centralHeader (hx : Plain x)
    (h : centralHeader x = some bytes) :
    ∃ record, bytes = record ++ asciiBytes x.filename ∧ record.length = 46 ∧
      ∀ rest, structUnpack structCentralDir (record ++ rest) =
        [stringCentralDir, x.createVersion, x.createSystem, x.extractVersion,
          x.reserved, x.flagBits, x.compressType, x.dateTime.dosTime,
          x.dateTime.dosDate, x.crc, x.compressSize, x.fileSize,
          (asciiBytes x.filename).length, 0, 0, 0, x.internalAttr,
          x.externalAttr, x.headerOffset.toNat] := by
  unfold centralHeader at h
  obtain ⟨record, hrecord, rfl⟩ := Option.map_eq_some_iff.mp h
  rw [encodeName_ascii hx.ascii, hx.extra, hx.comment] at hrecord ⊢
  refine ⟨record, by rw [List.append_nil, List.append_nil], ?_, ?_⟩
  · rw [length_structPack hrecord]
    simp only [List.map_cons, List.map_nil, List.sum_cons, List.sum_nil]
    rfl
  · exact fun rest => structUnpack_structPack hrecord rest

theorem structUnpack_fileHeader (hx : Plain x)
    (h : fileHeader x = some bytes) :
    ∃ record, bytes = record ++ asciiBytes x.filename ∧ record.length = 30 ∧
      ∀ rest, structUnpack structFileHeader (record ++ rest) =
        [stringFileHeader, x.extractVersion, x.reserved, x.flagBits,
          x.compressType, x.dateTime.dosTime, x.dateTime.dosDate, x.crc,
          x.compressSize, x.fileSize, (asciiBytes x.filename).length, 0] := by
  unfold fileHeader at h
  obtain ⟨record, hrecord, rfl⟩ := Option.map_eq_some_iff.mp h
  rw [encodeName_ascii hx.ascii, hx.extra] at hrecord ⊢
  refine ⟨record, by rw [List.append_nil], ?_, ?_⟩
  · rw [length_structPack hrecord]
    simp only [List.map_cons, List.map_nil, List.sum_cons, List.sum_nil]
    rfl
  · exact fun rest => structUnpack_structPack hrecord rest

theorem decodeExtra_nil (n : Nat) (x : ZipInfo) : decodeExtra n [] x = .ok x := by
  cases n with
  | zero => rfl
  | succ n => rw [decodeExtra, if_pos (by decide)]

/-- What is read where no check of `readEntry` fails. -/
theorem readEntry_of_checks {concat : Int} {data : Bytes} {y : ZipInfo}
    (filename : String) (hfull : ¬ (data.take 46).length ≠ 46)
    (hsignature : fieldsAt structCentralDir data 0 = stringCentralDir)
    (hname : decodeName (fieldsAt structCentralDir data 5)
      ((data.drop 46).take (fieldsAt structCentralDir data 12)) = some filename)
    (hversion : ¬ fieldsAt structCentralDir data 3 > 63)
    (hextra : decodeExtra data.length
      ((data.drop (46 + fieldsAt structCentralDir data 12)).take
        (fieldsAt structCentralDir data 13))
      (entryOf data filename
        ((data.drop (46 + fieldsAt structCentralDir data 12)).take
          (fieldsAt structCentralDir data 13))
        ((data.drop (46 + fieldsAt structCentralDir data 12 +
          fieldsAt structCentralDir data 13)).take
          (fieldsAt structCentralDir data 14))) = .ok y) :
    readEntry concat data =
      .ok { y with headerOffset := y.headerOffset + concat } := by
  rw [readEntry, if_neg hfull, if_neg (not_not.mpr hsignature), hname]
  simp only
  rw [if_neg hversion, hextra]

/-- An entry is read back, its offset shifted. -/
theorem readEntry_centralHeader (hx : Plain x) (hflags : x.flagBits = 0)
    (hoffset : 0 ≤ x.headerOffset) (h : centralHeader x = some bytes)
    (concat : Int) (rest : Bytes) :
    readEntry concat (bytes ++ rest) =
        .ok { x with headerOffset := x.headerOffset + concat } ∧
      entryLength (bytes ++ rest) = bytes.length := by
  obtain ⟨record, rfl, hlength, hfields⟩ := structUnpack_centralHeader hx h
  have hdata : record ++ asciiBytes x.filename ++ rest =
      record ++ (asciiBytes x.filename ++ rest) := List.append_assoc _ _ _
  have hunpack := hfields (asciiBytes x.filename ++ rest)
  have hname : ((record ++ (asciiBytes x.filename ++ rest)).drop 46).take
      (asciiBytes x.filename).length = asciiBytes x.filename := by
    rw [List.drop_left' hlength, List.take_left' rfl]
  have hfull : ((record ++ (asciiBytes x.filename ++ rest)).take 46).length =
      46 := by
    rw [List.take_left' hlength, hlength]
  have hdecode : decodeName x.flagBits (asciiBytes x.filename) =
      some x.filename := by
    rw [hflags]
    exact decodeName_ascii hx.ascii
  have hentry : entryOf (record ++ (asciiBytes x.filename ++ rest)) x.filename
      [] [] = x := by
    unfold entryOf fieldsAt
    rw [hunpack]
    show ZipInfo.mk x.filename (truncateName x.filename)
      (.ofDos x.dateTime.dosDate x.dateTime.dosTime) x.compressType [] []
      x.createSystem x.createVersion x.extractVersion x.reserved x.flagBits 0
      x.internalAttr x.externalAttr x.headerOffset.toNat x.crc x.compressSize
      x.fileSize none = x
    rw [truncateName_ascii hx.ascii, hx.date, Int.toNat_of_nonneg hoffset]
    obtain ⟨_, horig, _, _, _, hextra, hcomment, hvolume, hend⟩ := hx
    cases x
    simp only at horig hextra hcomment hvolume hend
    rw [horig, hextra, hcomment, hvolume, hend]
  rw [hdata]
  constructor
  · refine readEntry_of_checks x.filename (not_not.mpr hfull) ?_ ?_ ?_ ?_
    · unfold fieldsAt
      rw [hunpack]
      rfl
    · unfold fieldsAt
      rw [hunpack]
      show decodeName x.flagBits (((record ++ (asciiBytes x.filename ++
        rest)).drop 46).take (asciiBytes x.filename).length) = _
      rw [hname, hdecode]
    · unfold fieldsAt
      rw [hunpack]
      exact not_lt.mpr hx.version
    · unfold fieldsAt
      rw [hunpack]
      show decodeExtra _ (List.take 0 _) (entryOf _ x.filename (List.take 0 _)
        (List.take 0 _)) = _
      rw [List.take_zero, List.take_zero, hentry, decodeExtra_nil]
  · unfold entryLength fieldsAt
    rw [hunpack, List.length_append, hlength]
    rfl

end Headers

/-! ## The directory -/

/-- An entry of the directory of an archive that begins with its file. -/
structure Entry (x : ZipInfo) : Prop extends Plain x where
  flags : x.flagBits = 0
  offset : 0 ≤ x.headerOffset

theorem length_centralHeader {x : ZipInfo} {bytes : Bytes} (hx : Plain x)
    (h : centralHeader x = some bytes) :
    bytes.length = 46 + x.filename.length := by
  obtain ⟨record, rfl, hlength, _⟩ := structUnpack_centralHeader hx h
  rw [List.length_append, hlength, asciiBytes, List.length_map,
    String.length_toList]

theorem readEntries_directory {infos : List ZipInfo} {directory : List Bytes}
    (hinfos : ∀ x ∈ infos, Entry x)
    (h : infos.mapM centralHeader = some directory) {n : Nat}
    (hn : infos.length ≤ n) (rest : Bytes) :
    readEntries 0 n directory.flatten.length (directory.flatten ++ rest) =
      .ok infos := by
  induction infos generalizing n directory with
  | nil =>
      rw [List.mapM_nil] at h
      rw [← Option.some.inj h]
      cases n with
      | zero => rw [readEntries, List.flatten_nil, List.length_nil, if_pos rfl]
      | succ n => rw [readEntries, List.flatten_nil, List.length_nil, if_pos rfl]
  | cons x infos ih =>
      rw [List.mapM_cons] at h
      obtain ⟨bytes, hbytes, h⟩ := Option.bind_eq_some_iff.mp h
      obtain ⟨others, hothers, h⟩ := Option.bind_eq_some_iff.mp h
      rw [← Option.some.inj h]
      have hx : Entry x := hinfos x List.mem_cons_self
      obtain ⟨hread, hentry⟩ := readEntry_centralHeader hx.toPlain hx.flags
        hx.offset hbytes 0 (others.flatten ++ rest)
      have hlength := length_centralHeader hx.toPlain hbytes
      obtain ⟨m, rfl⟩ : ∃ m, n = m + 1 :=
        ⟨n - 1, by rw [List.length_cons] at hn; omega⟩
      have hleft : (bytes ++ others.flatten).length ≠ 0 := by
        rw [List.length_append]
        omega
      have hdrop : (bytes ++ (others.flatten ++ rest)).drop bytes.length =
          others.flatten ++ rest := List.drop_left' rfl
      have hsub : (bytes ++ others.flatten).length - bytes.length =
          others.flatten.length := by
        rw [List.length_append]
        omega
      rw [List.flatten_cons, readEntries, if_neg hleft, List.append_assoc, hread]
      simp only [hentry, hdrop, hsub, Int.add_zero]
      rw [ih (fun y hy => hinfos y (List.mem_cons_of_mem _ hy)) hothers
        (by rw [List.length_cons] at hn; omega)]
      rfl

theorem length_le_directory {infos : List ZipInfo} {directory : List Bytes}
    (hinfos : ∀ x ∈ infos, Plain x)
    (h : infos.mapM centralHeader = some directory) :
    infos.length ≤ directory.flatten.length := by
  induction infos generalizing directory with
  | nil => exact Nat.zero_le _
  | cons x infos ih =>
      rw [List.mapM_cons] at h
      obtain ⟨bytes, hbytes, h⟩ := Option.bind_eq_some_iff.mp h
      obtain ⟨others, hothers, h⟩ := Option.bind_eq_some_iff.mp h
      have hrest := ih (fun y hy => hinfos y (List.mem_cons_of_mem _ hy)) hothers
      have hlength := length_centralHeader (hinfos x List.mem_cons_self) hbytes
      rw [← Option.some.inj h, List.flatten_cons, List.length_append,
        List.length_cons]
      omega

/-! ## Where members end -/

/-- Each entry ends where the next one begins, the last one at `startDir`. -/
def withEnds (startDir : Int) : List ZipInfo → List ZipInfo
  | [] => []
  | x :: infos =>
    { x with
      endOffset := some ((infos.head?.map (·.headerOffset)).getD startDir) } ::
      withEnds startDir infos

theorem insertionSort_eq_reverse {α : Type} (r : α → α → Prop)
    [DecidableRel r] {l : List α} (h : l.Pairwise fun a b => ¬ r a b) :
    l.insertionSort r = l.reverse := by
  induction l with
  | nil => rfl
  | cons a l ih =>
      rw [List.pairwise_cons] at h
      have hlast : ∀ {m : List α}, (∀ b ∈ m, ¬ r a b) →
          m.orderedInsert r a = m ++ [a] := by
        intro m
        induction m with
        | nil => exact fun _ => rfl
        | cons b m ihm =>
            intro hm
            rw [List.orderedInsert, if_neg (hm b List.mem_cons_self),
              ihm fun c hc => hm c (List.mem_cons_of_mem _ hc), List.cons_append]
      rw [List.insertionSort_cons, ih h.2, List.reverse_cons]
      exact hlast fun b hb => h.1 b (List.mem_reverse.mp hb)

/-- The last of `l` to be given its end hands its offset on. -/
theorem assignEnds_append (e : Int) (l : List (ZipInfo × Nat))
    (x : ZipInfo) (i : Nat) :
    assignEnds e (l ++ [(x, i)]) = assignEnds e l ++
      [({ x with
        endOffset := some ((l.getLast?.map (·.1.headerOffset)).getD e) }, i)] := by
  induction l generalizing e with
  | nil => rfl
  | cons y l ih =>
      rw [List.cons_append, assignEnds, assignEnds, ih, List.cons_append]
      cases l with
      | nil => rfl
      | cons z l =>
          rw [List.getLast?_cons_cons]
          obtain ⟨last, hlast⟩ : ∃ last, (z :: l).getLast? = some last :=
            ⟨_, List.getLast?_eq_some_getLast (List.cons_ne_nil z l)⟩
          rw [hlast]
          rfl

theorem assignEnds_reverse (e : Int) (infos : List ZipInfo) (k : Nat) :
    assignEnds e (infos.zipIdx k).reverse =
      ((withEnds e infos).zipIdx k).reverse := by
  induction infos generalizing k with
  | nil => rfl
  | cons x infos ih =>
      have hhead : (infos.zipIdx (k + 1)).head?.map (·.1.headerOffset) =
          infos.head?.map (·.headerOffset) := by
        cases infos with
        | nil => rfl
        | cons y infos => rfl
      rw [List.zipIdx_cons, List.reverse_cons, assignEnds_append, ih,
        List.getLast?_reverse, hhead, withEnds, List.zipIdx_cons,
        List.reverse_cons]

theorem setEndOffsets_ascending {e : Int} {infos : List ZipInfo}
    (h : infos.Pairwise fun x y => x.headerOffset < y.headerOffset) :
    setEndOffsets e infos = withEnds e infos := by
  have hdown : (infos.zipIdx).Pairwise fun a b =>
      ¬ b.1.headerOffset ≤ a.1.headerOffset := by
    have hmap : ((infos.zipIdx).map (·.1)).Pairwise fun x y =>
        x.headerOffset < y.headerOffset := by
      rw [List.zipIdx_map_fst]
      exact h
    exact (List.pairwise_map.mp hmap).imp not_le.mpr
  have hup : ((withEnds e infos).zipIdx).reverse.Pairwise fun a b =>
      ¬ a.2 ≤ b.2 := by
    have hmap : (((withEnds e infos).zipIdx).map (·.2)).Pairwise (· < ·) := by
      rw [List.zipIdx_map_snd]
      exact List.pairwise_lt_range'
    rw [List.pairwise_reverse]
    exact (List.pairwise_map.mp hmap).imp not_le.mpr
  rw [setEndOffsets, insertionSort_eq_reverse _ hdown, assignEnds_reverse,
    insertionSort_eq_reverse _ hup, List.reverse_reverse, List.zipIdx_map_fst]

/-! ## The end record -/

/-- The bytes in front of the end record are no ZIP64 locator. -/
def NoLocator (body : Bytes) (record : Bytes) : Prop :=
  fieldsAt structEndArchive64Locator ((body ++ record).drop (body.length - 20))
    0 ≠ stringEndArchive64Locator

/-- The last name decides: one of ten letters leaves the attributes of its
member where a locator would begin, and the low half of those is nothing. -/
theorem noLocator_of_last {x : ZipInfo} {bytes : Bytes} (hx : Plain x)
    (h : centralHeader x = some bytes) (hname : x.filename.length = 10)
    (hattr : x.internalAttr = 0) (hmode : x.externalAttr % 65536 = 0)
    (front record : Bytes) : NoLocator (front ++ bytes) record := by
  have hlow : UInt8.ofNat x.externalAttr = 0 := by
    apply UInt8.toNat.inj
    rw [UInt8.toNat_ofNat']
    show x.externalAttr % 256 = 0
    omega
  have hnext : UInt8.ofNat (x.externalAttr / 256) = 0 := by
    apply UInt8.toNat.inj
    rw [UInt8.toNat_ofNat']
    show x.externalAttr / 256 % 256 = 0
    omega
  unfold centralHeader at h
  obtain ⟨packed, hpacked, rfl⟩ := Option.map_eq_some_iff.mp h
  rw [encodeName_ascii hx.ascii, hx.extra, hx.comment] at hpacked ⊢
  unfold structPack at hpacked
  split at hpacked
  · obtain ⟨first, tail, hsplit, htail, hzero⟩ : ∃ first tail : Bytes,
        packed ++ asciiBytes x.filename = first ++ tail ∧ tail.length = 20 ∧
          ∀ rest, fieldsAt structEndArchive64Locator (tail ++ rest) 0 = 0 := by
      rw [← Option.some.inj hpacked]
      refine ⟨packFields
        [(4, stringCentralDir), (1, x.createVersion), (1, x.createSystem),
          (1, x.extractVersion), (1, x.reserved), (2, x.flagBits),
          (2, x.compressType), (2, x.dateTime.dosTime), (2, x.dateTime.dosDate),
          (4, x.crc), (4, x.compressSize), (4, x.fileSize),
          (2, (asciiBytes x.filename).length), (2, 0), (2, 0), (2, 0)],
        packFields [(2, x.internalAttr), (4, x.externalAttr),
          (4, x.headerOffset.toNat)] ++ asciiBytes x.filename, ?_, ?_, ?_⟩
      · rw [← List.append_assoc]
        rfl
      · rw [List.length_append, length_packFields, asciiBytes, List.length_map,
          String.length_toList, hname]
        rfl
      · intro rest
        rw [hattr]
        show unpackNat [UInt8.ofNat 0, UInt8.ofNat (0 / 256),
          UInt8.ofNat x.externalAttr, UInt8.ofNat (x.externalAttr / 256)] = 0
        rw [hlow, hnext]
        rfl
    have hbody : front ++ (packed ++ asciiBytes x.filename ++ [] ++ []) =
        (front ++ first) ++ tail := by
      rw [List.append_nil, List.append_nil, hsplit, List.append_assoc]
    have hdrop : ((front ++ first) ++ tail ++ record).drop
        (((front ++ first) ++ tail).length - 20) = tail ++ record := by
      have hlength : ((front ++ first) ++ tail).length - 20 =
          (front ++ first).length := by
        rw [List.length_append, htail, Nat.add_sub_cancel]
      rw [hlength, List.append_assoc]
      exact List.drop_left' rfl
    rw [NoLocator, hbody, hdrop, hzero]
    decide
  · cases hpacked

theorem endRecData_append {body record : Bytes} {count size offset : Nat}
    (h : endRecord count size offset = some record)
    (hlocator : NoLocator body record) :
    endRecData (body ++ record) =
      .ok ⟨stringEndArchive, size, offset, [], body.length⟩ := by
  have hlength : record.length = 22 := by
    rw [length_structPack h]
    simp only [List.map_cons, List.map_nil, List.sum_cons, List.sum_nil]
    rfl
  have hstart : (body ++ record).length - 22 = body.length := by
    rw [List.length_append]
    omega
  have hdrop : (body ++ record).drop body.length = record :=
    List.drop_left' rfl
  have hunpack : structUnpack structEndArchive record =
      [stringEndArchive, 0, 0, count, count, size, offset, 0] := by
    have hback := structUnpack_structPack h []
    rw [List.append_nil] at hback
    exact hback
  have hat : endRecordAt (body ++ record) body.length =
      ⟨stringEndArchive, size, offset, [], body.length⟩ := by
    unfold endRecordAt fieldsAt
    rw [hdrop, hunpack]
    rfl
  have hfirst : fieldsAt structEndArchive record 0 = stringEndArchive := by
    rw [fieldsAt, hunpack]
    rfl
  have hcomment : fieldsAt structEndArchive record 7 = 0 := by
    rw [fieldsAt, hunpack]
    rfl
  rw [endRecData, hstart, hdrop, if_pos ⟨hlength, hfirst, hcomment⟩, hat,
    endRecData64]
  split
  · rfl
  · exact if_pos hlocator

/-! ## The members -/

/-- The entries of `members` in an archive from `offset` on, and its bytes
there. -/
def Laid : Nat → List (ZipInfo × Bytes) → List ZipInfo → Bytes → Prop
  | _, [], infos, out => infos = [] ∧ out = []
  | offset, m :: members, infos, out =>
    ∃ header infos' out', fileHeader (m.1.written m.2 offset) = some header ∧
      infos = m.1.written m.2 offset :: infos' ∧ out = header ++ m.2 ++ out' ∧
      Laid (offset + header.length + m.2.length) members infos' out'

theorem writestr_eq_ok {x : ZipInfo} {data : Bytes} {w w' : Writer}
    (h : writestr x data w = .ok w') :
    ∃ header, fileHeader (x.written data w.out.length) = some header ∧
      w'.out = w.out ++ header ++ data ∧
      w'.filelist = w.filelist ++ [x.written data w.out.length] := by
  unfold writestr at h
  split at h
  · cases h
  · split at h
    · cases h
    · next header hheader =>
        cases h
        exact ⟨header, hheader, rfl, rfl⟩

theorem laid_of_foldlM {members : List (ZipInfo × Bytes)} {w w' : Writer}
    (h : members.foldlM (fun w m => writestr m.1 m.2 w) w = .ok w') :
    ∃ infos out, w'.filelist = w.filelist ++ infos ∧ w'.out = w.out ++ out ∧
      Laid w.out.length members infos out := by
  induction members generalizing w with
  | nil =>
      rw [← foldlM_nil_eq_ok.mp h]
      exact ⟨[], [], (List.append_nil _).symm, (List.append_nil _).symm, rfl, rfl⟩
  | cons m members ih =>
      obtain ⟨mid, hstep, hrest⟩ := foldlM_cons_eq_ok.mp h
      obtain ⟨header, hheader, hout, hlist⟩ := writestr_eq_ok hstep
      obtain ⟨infos, out, hinfos, hbytes, hlaid⟩ := ih hrest
      have hlength : mid.out.length =
          w.out.length + header.length + m.2.length := by
        rw [hout, List.length_append, List.length_append]
      rw [hlength] at hlaid
      refine ⟨m.1.written m.2 w.out.length :: infos, header ++ m.2 ++ out, ?_, ?_,
        header, infos, out, hheader, rfl, rfl, hlaid⟩
      · rw [hinfos, hlist, List.append_assoc]
        rfl
      · rw [hbytes, hout]
        simp only [List.append_assoc]

theorem plain_written {x : ZipInfo} (h : Plain x) (data : Bytes)
    (offset : Nat) : Entry (x.written data offset) where
  ascii := h.ascii
  orig := h.orig
  date := h.date
  version := h.version
  stored := h.stored
  extra := h.extra
  comment := h.comment
  volume := h.volume
  endOffset := h.endOffset
  flags := rfl
  offset := Int.natCast_nonneg offset

section Laid

variable {members : List (ZipInfo × Bytes)} {infos : List ZipInfo}
  {offset : Nat} {out : Bytes}

theorem entry_of_laid (hplain : ∀ m ∈ members, Plain m.1)
    (h : Laid offset members infos out) : ∀ x ∈ infos, Entry x := by
  induction members generalizing infos offset out with
  | nil =>
      rw [h.1]
      exact fun _ hx => absurd hx List.not_mem_nil
  | cons m members ih =>
      obtain ⟨header, infos', out', _, rfl, _, hrest⟩ := h
      intro x hx
      rcases List.mem_cons.mp hx with rfl | hx
      · exact plain_written (hplain m List.mem_cons_self) _ _
      · exact ih (fun q hq => hplain q (List.mem_cons_of_mem _ hq)) hrest x hx

theorem length_fileHeader {x : ZipInfo} {bytes : Bytes} (hx : Plain x)
    (h : fileHeader x = some bytes) :
    bytes.length = 30 + (asciiBytes x.filename).length := by
  obtain ⟨record, rfl, hlength, _⟩ := structUnpack_fileHeader hx h
  rw [List.length_append, hlength]

/-- Offsets ascend. -/
theorem ascending_of_laid (hplain : ∀ m ∈ members, Plain m.1)
    (h : Laid offset members infos out) :
    (∀ x ∈ infos, (offset : Int) ≤ x.headerOffset) ∧
      infos.Pairwise fun x y => x.headerOffset < y.headerOffset := by
  induction members generalizing infos offset out with
  | nil =>
      rw [h.1]
      exact ⟨fun _ hx => absurd hx List.not_mem_nil, .nil⟩
  | cons m members ih =>
      obtain ⟨header, infos', out', hheader, rfl, _, hrest⟩ := h
      have hlength := length_fileHeader
        (plain_written (hplain m List.mem_cons_self) m.2 offset).toPlain hheader
      obtain ⟨hfrom, hpairs⟩ := ih
        (fun q hq => hplain q (List.mem_cons_of_mem _ hq)) hrest
      have hhead : (m.1.written m.2 offset).headerOffset = offset := rfl
      refine ⟨?_, List.pairwise_cons.mpr ⟨?_, hpairs⟩⟩
      · intro x hx
        rcases List.mem_cons.mp hx with rfl | hx
        · exact le_of_eq hhead.symm
        · have := hfrom x hx
          omega
      · intro x hx
        have := hfrom x hx
        omega

theorem last_of_laid {m : ZipInfo × Bytes}
    (h : Laid offset (members ++ [m]) infos out) :
    ∃ before place, infos = before ++ [m.1.written m.2 place] := by
  induction members generalizing infos offset out with
  | nil =>
      obtain ⟨header, infos', out', _, rfl, _, hrest, _⟩ := h
      rw [hrest]
      exact ⟨[], offset, rfl⟩
  | cons q members ih =>
      obtain ⟨header, infos', out', _, rfl, _, hrest⟩ := h
      obtain ⟨before, place, rfl⟩ := ih hrest
      exact ⟨q.1.written q.2 offset :: before, place, rfl⟩

/-- The first of the members begins where the archive goes on. -/
theorem head_of_laid (h : Laid offset members infos out) :
    ((infos.head?.map (·.headerOffset)).getD (offset + out.length : Nat) : Int) =
      offset := by
  cases members with
  | nil =>
      rw [h.1, h.2]
      rfl
  | cons m members =>
      obtain ⟨header, infos', out', _, rfl, _, _⟩ := h
      rfl

end Laid

section Member

variable {x : ZipInfo} {pre record data post : Bytes}

/-- The header of a stored member, with its name behind it and no extra
field. -/
structure HeaderOf (x : ZipInfo) (record : Bytes) : Prop where
  length : record.length = 30
  signature : ∀ rest, fieldsAt structFileHeader (record ++ rest) 0 =
    stringFileHeader
  flags : ∀ rest, fieldsAt structFileHeader (record ++ rest) 3 = 0
  nameLength : ∀ rest, fieldsAt structFileHeader (record ++ rest) 10 =
    (asciiBytes x.filename).length
  extraLength : ∀ rest, fieldsAt structFileHeader (record ++ rest) 11 = 0

theorem headerOf_fileHeader {bytes : Bytes} (hx : Entry x)
    (h : fileHeader x = some bytes) :
    ∃ record, bytes = record ++ asciiBytes x.filename ∧ HeaderOf x record := by
  obtain ⟨record, hbytes, hlength, hfields⟩ :=
    structUnpack_fileHeader hx.toPlain h
  refine ⟨record, hbytes, hlength, ?_, ?_, ?_, ?_⟩
  · intro rest
    rw [fieldsAt, hfields]
    rfl
  · intro rest
    rw [fieldsAt, hfields]
    exact hx.flags
  · intro rest
    rw [fieldsAt, hfields]
    rfl
  · intro rest
    rw [fieldsAt, hfields]
    rfl

/-- A member whose header, name and data stand where its entry says is read. -/
theorem readMember_eq (hx : Plain x) (hflags : x.flagBits = 0)
    (hrecord : HeaderOf x record) (hoffset : x.headerOffset = pre.length)
    (hcompress : x.compressSize = data.length)
    (hsize : x.fileSize = data.length) (hcrc : x.crc = crc32 data)
    {endOffset : Int}
    (hend : (pre.length + 30 + (asciiBytes x.filename).length + data.length :
      Nat) ≤ endOffset) :
    readMember (pre ++ (record ++ asciiBytes x.filename ++ data ++ post))
      { x with endOffset := some endOffset } = .ok data := by
  have hat : (pre ++ (record ++ asciiBytes x.filename ++ data ++ post)).drop
      pre.length = record ++ (asciiBytes x.filename ++ (data ++ post)) := by
    rw [List.drop_left' rfl]
    simp only [List.append_assoc]
  have hafter : (pre ++ (record ++ asciiBytes x.filename ++ data ++ post)).drop
      (pre.length + 30) = asciiBytes x.filename ++ (data ++ post) := by
    rw [← List.drop_drop, hat, List.drop_left' hrecord.length]
  have hstart : dataStart (pre ++ (record ++ asciiBytes x.filename ++ data ++
      post)) pre.length = pre.length + 30 + (asciiBytes x.filename).length := by
    rw [dataStart, hat, hafter, hrecord.nameLength, hrecord.extraLength,
      List.take_left' rfl, List.take_zero, List.length_nil, Nat.add_zero]
  have hdata : (pre ++ (record ++ asciiBytes x.filename ++ data ++ post)).drop
      (pre.length + 30 + (asciiBytes x.filename).length) = data ++ post := by
    rw [← List.drop_drop, hafter, List.drop_left' rfl]
  have hfull : (((pre ++ (record ++ asciiBytes x.filename ++ data ++ post)).drop
      pre.length).take 30).length = 30 := by
    rw [hat, List.take_left' hrecord.length, hrecord.length]
  have hplace : x.headerOffset.toNat = pre.length := by
    rw [hoffset]
    exact Int.toNat_natCast _
  have hwithin : (decide ((pre.length + 30 + (asciiBytes x.filename).length :
      Nat) + (data.length : Int) > endOffset)) = false := by
    rw [decide_eq_false_iff_not]
    omega
  have hread : readStored (pre ++ (record ++ asciiBytes x.filename ++ data ++
      post)) { x with endOffset := some endOffset }
      (pre.length + 30 + (asciiBytes x.filename).length) = .ok data := by
    have hempty : ¬ (data.length ≠ 0 ∧ data = []) := by
      intro ⟨hne, hnil⟩
      rw [hnil] at hne
      exact hne rfl
    simp only [readStored, hdata, hcompress, hsize, hcrc,
      List.take_left' (rfl : data.length = data.length), List.take_length,
      if_neg hempty, min_self, lt_irrefl, if_false, ne_eq, not_true_eq_false]
  have hnegative : ¬ x.headerOffset < 0 := by
    rw [hoffset]
    omega
  have hdecode : decodeName 0 (asciiBytes x.filename) = some x.origFilename := by
    rw [hx.orig]
    exact decodeName_ascii hx.ascii
  simp only [readMember, hnegative, if_false, hplace, hat, hafter, hstart,
    hrecord.signature, hrecord.flags, hrecord.nameLength]
  rw [hat] at hfull
  have hnobit : ∀ k, bit x.flagBits k = false := by
    intro k
    rw [hflags]
    exact Nat.zero_testBit k
  have hnopatch : ¬ (bit x.flagBits 5 = true ∨ bit x.flagBits 6 = true) := by
    rw [hnobit, hnobit]
    decide
  rw [if_neg (not_not.mpr hfull), if_neg (not_not.mpr rfl), if_neg hnopatch,
    List.take_left' rfl, hdecode, hread]
  simp only [ne_eq, not_true_eq_false, if_false, Option.any_some, hcompress,
    hwithin, hnobit, hx.stored, Bool.false_eq_true]

end Member

/-! ## The whole archive -/

/-- An entry of an archive that is read, and the member it is written from. -/
def Describes (x : ZipInfo) (m : ZipInfo × Bytes) : Prop :=
  ∃ offset endOffset, x =
    { m.1.written m.2 offset with endOffset := some endOffset }

section Archive

variable {members : List (ZipInfo × Bytes)} {infos : List ZipInfo}
  {out : Bytes}

/-- Members are read from where they are laid. -/
theorem readMember_of_laid (hplain : ∀ m ∈ members, Plain m.1) (pre : Bytes)
    (h : Laid pre.length members infos out) (post : Bytes) :
    List.Forall₂ (fun x m => Describes x m ∧
        readMember (pre ++ (out ++ post)) x = .ok m.2)
      (withEnds (pre.length + out.length : Nat) infos) members := by
  induction members generalizing infos out pre with
  | nil =>
      rw [h.1]
      exact .nil
  | cons m members ih =>
      obtain ⟨header, infos', out', hheader, rfl, rfl, hrest⟩ := h
      have hentry : Entry (m.1.written m.2 pre.length) :=
        plain_written (hplain m List.mem_cons_self) m.2 pre.length
      obtain ⟨record, hbytes, hrecord⟩ := headerOf_fileHeader hentry hheader
      have hlength : header.length =
          30 + (asciiBytes (m.1.written m.2 pre.length).filename).length := by
        rw [hbytes, List.length_append, hrecord.length]
      have hnext : (pre ++ header ++ m.2).length =
          pre.length + header.length + m.2.length := by
        rw [List.length_append, List.length_append]
      have htotal : pre.length + (header ++ m.2 ++ out').length =
          (pre ++ header ++ m.2).length + out'.length := by
        rw [hnext]
        simp only [List.length_append]
        omega
      rw [← hnext] at hrest
      have hafter := ih (fun q hq => hplain q (List.mem_cons_of_mem _ hq))
        (pre ++ header ++ m.2) hrest
      have hhead := head_of_laid hrest
      rw [withEnds, htotal, hhead]
      refine .cons ⟨⟨pre.length, _, rfl⟩, ?_⟩ ?_
      · have hread : readMember (pre ++ (record ++
            asciiBytes (m.1.written m.2 pre.length).filename ++ m.2 ++
              (out' ++ post)))
            { m.1.written m.2 pre.length with
              endOffset := some ((pre ++ header ++ m.2).length : Int) } =
            .ok m.2 := by
          refine readMember_eq hentry.toPlain hentry.flags hrecord rfl rfl rfl rfl
            ?_
          rw [hnext, hlength]
          omega
        rw [← hbytes] at hread
        have hfile : pre ++ (header ++ m.2 ++ (out' ++ post)) =
            pre ++ (header ++ m.2 ++ out' ++ post) := by
          simp only [List.append_assoc]
        rw [hfile] at hread
        exact hread
      · have hfile : pre ++ header ++ m.2 ++ (out' ++ post) =
            pre ++ (header ++ m.2 ++ out' ++ post) := by
          simp only [List.append_assoc]
        rw [hfile] at hafter
        exact hafter

end Archive

/-- The parts of an archive that is written: the members, the directory, and
the end record. -/
structure Parts (members : List (ZipInfo × Bytes)) (infos : List ZipInfo)
    (out directory record : Bytes) : Prop where
  laid : Laid 0 members infos out
  entries : ∃ entries, infos.mapM centralHeader = some entries ∧
    directory = entries.flatten
  ending : endRecord infos.length directory.length out.length = some record

theorem parts_of_writeZip {members : List (ZipInfo × Bytes)} {archive : Bytes}
    (h : writeZip members = .ok archive) :
    ∃ infos out directory record, archive = out ++ directory ++ record ∧
      Parts members infos out directory record := by
  unfold writeZip at h
  split at h
  · cases h
  · next w hw =>
      obtain ⟨infos, out, hlist, hout, hlaid⟩ := laid_of_foldlM hw
      have hfilelist : w.filelist = infos := hlist
      have hbytes : w.out = out := hout
      unfold closeZip at h
      rw [hfilelist, hbytes] at h
      split at h
      · cases h
      · next entries hentries =>
          split at h
          · cases h
          · split at h
            · cases h
            · next record hrecord =>
                cases h
                exact ⟨infos, out, entries.flatten, record, rfl, hlaid,
                  ⟨entries, hentries, rfl⟩, hrecord⟩

/-- A last member with a name of ten letters keeps the end free of anything
that looks like a locator. -/
theorem Parts.noLocator {members : List (ZipInfo × Bytes)}
    {m : ZipInfo × Bytes} {infos : List ZipInfo} {out directory record : Bytes}
    (h : Parts (members ++ [m]) infos out directory record) (hm : Plain m.1)
    (hname : m.1.filename.length = 10) (hattr : m.1.internalAttr = 0)
    (hset : m.1.externalAttr ≠ 0) (hmode : m.1.externalAttr % 65536 = 0) :
    NoLocator (out ++ directory) record := by
  obtain ⟨entries, hentries, rfl⟩ := h.entries
  obtain ⟨before, place, rfl⟩ := last_of_laid h.laid
  rw [List.mapM_append] at hentries
  obtain ⟨headers, _, hentries⟩ := Option.bind_eq_some_iff.mp hentries
  obtain ⟨lasts, hlasts, hentries⟩ := Option.bind_eq_some_iff.mp hentries
  rw [List.mapM_cons] at hlasts
  obtain ⟨bytes, hbytes, hlasts⟩ := Option.bind_eq_some_iff.mp hlasts
  have hlast : lasts = [bytes] := (Option.some.inj hlasts).symm
  have hexternal : (m.1.written m.2 place).externalAttr = m.1.externalAttr :=
    if_neg hset
  rw [← Option.some.inj hentries, hlast, List.flatten_append,
    List.flatten_cons, List.flatten_nil, List.append_nil, ← List.append_assoc]
  exact noLocator_of_last (plain_written hm m.2 place).toPlain hbytes hname hattr
    (by rw [hexternal]; exact hmode) _ _

/-- The directory of an archive that is written is read back. -/
theorem openZip_parts {members : List (ZipInfo × Bytes)}
    {infos : List ZipInfo} {out directory record : Bytes}
    (hplain : ∀ m ∈ members, Plain m.1)
    (h : Parts members infos out directory record)
    (hlocator : NoLocator (out ++ directory) record) :
    openZip (out ++ directory ++ record) =
      .ok ⟨out ++ directory ++ record, [], withEnds out.length infos⟩ := by
  obtain ⟨entries, hentries, hdirectory⟩ := h.entries
  have hend : endRecData (out ++ directory ++ record) =
      .ok ⟨stringEndArchive, directory.length, out.length, [],
        (out ++ directory).length⟩ := endRecData_append h.ending hlocator
  have hinfos := entry_of_laid hplain h.laid
  have hconcat : EndRecord.concat ⟨stringEndArchive, directory.length, out.length,
      [], (out ++ directory).length⟩ = 0 := by
    have hplainEnd : stringEndArchive ≠ stringEndArchive64 := by decide
    rw [EndRecord.concat, if_neg hplainEnd, List.length_append]
    simp only []
    omega
  have hslice : ((out ++ directory ++ record).drop out.length).take
      directory.length = directory := by
    rw [List.append_assoc, List.drop_left' rfl, List.take_left' rfl]
  have hcount : infos.length ≤ directory.length := by
    rw [hdirectory]
    exact length_le_directory (fun x hx => (hinfos x hx).toPlain) hentries
  have hread : readEntries 0 directory.length directory.length directory =
      .ok infos := by
    have hback := readEntries_directory hinfos hentries hcount []
    rw [List.append_nil, ← hdirectory] at hback
    exact hback
  have hascending := (ascending_of_laid hplain h.laid).2
  unfold openZip
  rw [hend]
  simp only [hconcat, Int.add_zero, Int.toNat_natCast, hslice, hread]
  rw [if_neg (by omega), setEndOffsets_ascending hascending]

/-- An archive that is written from plain members is read back. -/
theorem openZip_of_parts {members : List (ZipInfo × Bytes)}
    {infos : List ZipInfo} {out directory record : Bytes}
    (hplain : ∀ m ∈ members, Plain m.1)
    (h : Parts members infos out directory record)
    (hlocator : NoLocator (out ++ directory) record) :
    ∃ infos', openZip (out ++ directory ++ record) =
        .ok ⟨out ++ directory ++ record, [], infos'⟩ ∧
      List.Forall₂ (fun x m => Describes x m ∧
        readMember (out ++ directory ++ record) x = .ok m.2) infos' members := by
  refine ⟨withEnds out.length infos, openZip_parts hplain h hlocator, ?_⟩
  have hmembers := readMember_of_laid hplain [] h.laid (directory ++ record)
  rw [List.nil_append, ← List.append_assoc, List.length_nil, Nat.zero_add]
    at hmembers
  exact hmembers

end NodeLink.Lib.Zip
