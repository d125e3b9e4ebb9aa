import Mathlib
import NodeLink.Lib.Struct

/-!
# ZIP archives

What `zipfile.ZipFile` makes of a byte string, and what it writes. An archive
is read from its end: the end record says where the central directory is, and
the directory where each member is. Reading stops at the first thing it does
not like, but it does like much that it never writes itself: bytes before the
archive, members that are not in the directory, a NUL in a file name.

Only members that are stored are read and written, and none of a gibibyte or
more; ZIP64 records are read, and writing what would take them is refused.
-/

namespace NodeLink.Lib.Zip

open Lib

/-- `BadZipFile` and `struct.error`; `RuntimeError` with `NotImplementedError`;
`EOFError`; `ValueError` with `UnicodeDecodeError`; `LargeZipFile`. -/
inductive ZipError where
  | badZipFile
  | runtime
  | eof
  | value
  | largeZipFile
  deriving DecidableEq, Repr

/-! ## Records -/

def stringEndArchive : Nat := 0x06054b50
def stringCentralDir : Nat := 0x02014b50
def stringFileHeader : Nat := 0x04034b50
def stringEndArchive64Locator : Nat := 0x07064b50
def stringEndArchive64 : Nat := 0x06064b50

/-- `<4s4H2LH` -/
def structEndArchive : List Nat := [4, 2, 2, 2, 2, 4, 4, 2]

/-- `<4s4B4HL2L5H2L` -/
def structCentralDir : List Nat :=
  [4, 1, 1, 1, 1, 2, 2, 2, 2, 4, 4, 4, 2, 2, 2, 2, 2, 4, 4]

/-- `<4s2B4HL2L2H` -/
def structFileHeader : List Nat := [4, 1, 1, 2, 2, 2, 2, 4, 4, 4, 2, 2]

/-- `<4sLQL` -/
def structEndArchive64Locator : List Nat := [4, 4, 8, 4]

/-- `<4sQ2H2L4Q` -/
def structEndArchive64 : List Nat := [4, 8, 2, 2, 4, 4, 8, 8, 8, 8]

def zip64Limit : Nat := 2 ^ 31 - 1
def zipFilecountLimit : Nat := 2 ^ 16 - 1

/-- The fields of a record where some bytes begin. -/
def fieldsAt (format : List Nat) (bytes : Bytes) (i : Nat) : Nat :=
  (structUnpack format bytes).getD i 0

structure DateTime where
  year : Nat
  month : Nat
  day : Nat
  hour : Nat
  minute : Nat
  second : Nat
  deriving DecidableEq, Repr

def DateTime.ofDos (d t : Nat) : DateTime where
  year := d / 512 + 1980
  month := d / 32 % 16
  day := d % 32
  hour := t / 2048
  minute := t / 32 % 64
  second := t % 32 * 2

def DateTime.dosDate (dt : DateTime) : Nat :=
  (dt.year - 1980) <<< 9 ||| dt.month <<< 5 ||| dt.day

def DateTime.dosTime (dt : DateTime) : Nat :=
  dt.hour <<< 11 ||| dt.minute <<< 5 ||| dt.second / 2

/-- `ZipInfo`. The offset of a header counts from the start of the file, which
may begin with something else. -/
structure ZipInfo where
  origFilename : String
  filename : String
  dateTime : DateTime
  compressType : Nat := 0
  comment : Bytes := []
  extra : Bytes := []
  createSystem : Nat := 3
  createVersion : Nat := 20
  extractVersion : Nat := 20
  reserved : Nat := 0
  flagBits : Nat := 0
  volume : Nat := 0
  internalAttr : Nat := 0
  externalAttr : Nat := 0
  headerOffset : Int := 0
  crc : Nat := 0
  compressSize : Nat := 0
  fileSize : Nat := 0
  endOffset : Option Int := none
  deriving DecidableEq, Repr

/-- The name, up to the first NUL. -/
def truncateName (name : String) : String :=
  String.ofList (name.toList.takeWhile fun c => decide (c ≠ Char.ofNat 0))

def ZipInfo.isDir (x : ZipInfo) : Bool := x.filename.toList.getLast? == some '/'

def bit (flags k : Nat) : Bool := flags.testBit k

/-! ## Texts and checksums -/

/-- The upper half of code page 437. -/
def upper437 : List Char :=
  ("ÇüéâäàåçêëèïîìÄÅÉæÆôöòûùÿÖÜ¢£¥₧ƒáíóúñÑªº¿⌐¬½¼¡«»░▒▓│┤╡╢╖╕╣║╗╝╜╛┐└┴┬├─┼╞╟╚╔╩╦╠═╬╧╨" ++
    "╤╥╙╘╒╓╫╪┘┌█▄▌▐▀αßΓπΣσµτΦΘΩδ∞φε∩≡±≥≤⌠⌡÷≈°∙·√ⁿ²■\u00a0").toList

def char437 (b : UInt8) : Char :=
  if b < 128 then Char.ofNat b.toNat else upper437.getD (b.toNat - 128) '?'

/-- A file name, by the flag that says how it is written. -/
def decodeName (flags : Nat) (name : Bytes) : Option String :=
  if bit flags 11 then (readUtf8 name).map String.ofList
  else some (String.ofList (name.map char437))

/-- `_encodeFilenameFlags` -/
def encodeName (name : String) (flags : Nat) : Bytes × Nat :=
  if name.toList.all fun c => decide (c.toNat < 128) then
    (name.toList.map fun c => UInt8.ofNat c.toNat, flags)
  else (utf8 name.toList, flags ||| 0x800)

def crcBit (crc : Nat) : Nat :=
  if crc % 2 = 1 then crc / 2 ^^^ 0xedb88320 else crc / 2

def crcByte (crc : Nat) (b : UInt8) : Nat := crcBit^[8] (crc ^^^ b.toNat)

/-- `zlib.crc32` -/
def crc32 (bytes : Bytes) : Nat :=
  bytes.foldl crcByte 0xffffffff ^^^ 0xffffffff

example : crc32 [49, 50, 51, 52, 53, 54, 55, 56, 57] = 0xcbf43926 := by
  decide +kernel

/-! ## The end of an archive -/

/-- What is used of the end record. -/
structure EndRecord where
  signature : Nat
  size : Nat
  offset : Nat
  comment : Bytes
  location : Nat
  deriving DecidableEq, Repr

/-- `_EndRecData64`, on the record that is found at `location`. A position
before the start of the file is its start. -/
def endRecData64 (file : Bytes) (endrec : EndRecord) :
    Except ZipError EndRecord :=
  if ((file.drop (endrec.location - 20)).take 20).length ≠ 20 then .ok endrec
  else if fieldsAt structEndArchive64Locator
      (file.drop (endrec.location - 20)) 0 ≠ stringEndArchive64Locator then
    .ok endrec
  else if fieldsAt structEndArchive64Locator
        (file.drop (endrec.location - 20)) 1 ≠ 0 ∨
      fieldsAt structEndArchive64Locator
        (file.drop (endrec.location - 20)) 3 > 1 then
    .error .badZipFile
  else if ((file.drop (endrec.location - 76)).take 56).length ≠ 56 then
    .ok endrec
  else if fieldsAt structEndArchive64 (file.drop (endrec.location - 76)) 0 ≠
      stringEndArchive64 then .ok endrec
  else
    .ok { endrec with
      signature := stringEndArchive64
      size := fieldsAt structEndArchive64 (file.drop (endrec.location - 76)) 8
      offset := fieldsAt structEndArchive64 (file.drop (endrec.location - 76)) 9 }

/-- `hay.rfind(needle)` -/
def rfind (needle : Bytes) : Bytes → Option Nat
  | [] => if needle = [] then some 0 else none
  | b :: bs =>
    match rfind needle bs with
    | some i => some (i + 1)
    | none => if needle.isPrefixOf (b :: bs) then some 0 else none

/-- The end record at a location, with its comment. -/
def endRecordAt (file : Bytes) (location : Nat) : EndRecord where
  signature := fieldsAt structEndArchive (file.drop location) 0
  size := fieldsAt structEndArchive (file.drop location) 5
  offset := fieldsAt structEndArchive (file.drop location) 6
  comment := ((file.drop location).drop 22).take
    (fieldsAt structEndArchive (file.drop location) 7)
  location

/-- `_EndRecData`: the record is at the very end, without a comment, or it is
the last one to begin in the stretch a comment can take. -/
def endRecData (file : Bytes) : Except ZipError EndRecord :=
  if (file.drop (file.length - 22)).length = 22 ∧
      fieldsAt structEndArchive (file.drop (file.length - 22)) 0 =
        stringEndArchive ∧
      fieldsAt structEndArchive (file.drop (file.length - 22)) 7 = 0 then
    endRecData64 file (endRecordAt file (file.length - 22))
  else
    match rfind (packNat 4 stringEndArchive)
        (file.drop (file.length - (2 ^ 16 + 22))) with
    | none => .error .badZipFile
    | some start =>
      if ((file.drop (file.length - (2 ^ 16 + 22) + start)).take 22).length ≠ 22
      then .error .badZipFile
      else
        endRecData64 file
          (endRecordAt file (file.length - (2 ^ 16 + 22) + start))

/-! ## The central directory -/

/-- One `<Q` off the front of a field. -/
def takeQuad (data : Bytes) : Except ZipError (Nat × Bytes) :=
  if (data.take 8).length < 8 then .error .badZipFile
  else .ok (unpackNat (data.take 8), data.drop 8)

/-- The sizes a ZIP64 field gives. -/
def zip64Sizes (data : Bytes) (x : ZipInfo) : Except ZipError ZipInfo := do
  let (fileSize, data) ←
    if x.fileSize = 0xffffffffffffffff ∨ x.fileSize = 0xffffffff then
      takeQuad data
    else .ok (x.fileSize, data)
  let (compressSize, data) ←
    if x.compressSize = 0xffffffff then takeQuad data
    else .ok (x.compressSize, data)
  if x.headerOffset = 0xffffffff then
    let (headerOffset, _) ← takeQuad data
    .ok { x with fileSize, compressSize, headerOffset }
  else .ok { x with fileSize, compressSize }

/-- `_decodeExtra`, with a bound on the fields. -/
def decodeExtra : Nat → Bytes → ZipInfo → Except ZipError ZipInfo
  | 0, _, x => .ok x
  | n + 1, extra, x =>
    if extra.length < 4 then .ok x
    else if unpackNat ((extra.drop 2).take 2) + 4 > extra.length then
      .error .badZipFile
    else if unpackNat (extra.take 2) ≠ 1 then
      decodeExtra n (extra.drop (unpackNat ((extra.drop 2).take 2) + 4)) x
    else
      match zip64Sizes ((extra.drop 4).take (unpackNat ((extra.drop 2).take 2)))
          x with
      | .error e => .error e
      | .ok x =>
        decodeExtra n (extra.drop (unpackNat ((extra.drop 2).take 2) + 4)) x

/-- The entry of the directory with the fields of `data` and these texts. -/
def entryOf (data : Bytes) (name : String) (extra comment : Bytes) :
    ZipInfo where
  origFilename := name
  filename := truncateName name
  dateTime := .ofDos (fieldsAt structCentralDir data 8)
    (fieldsAt structCentralDir data 7)
  compressType := fieldsAt structCentralDir data 6
  comment
  extra
  createVersion := fieldsAt structCentralDir data 1
  createSystem := fieldsAt structCentralDir data 2
  extractVersion := fieldsAt structCentralDir data 3
  reserved := fieldsAt structCentralDir data 4
  flagBits := fieldsAt structCentralDir data 5
  volume := fieldsAt structCentralDir data 15
  internalAttr := fieldsAt structCentralDir data 16
  externalAttr := fieldsAt structCentralDir data 17
  headerOffset := fieldsAt structCentralDir data 18
  crc := fieldsAt structCentralDir data 9
  compressSize := fieldsAt structCentralDir data 10
  fileSize := fieldsAt structCentralDir data 11

/-- The first entry of a stretch of the directory. -/
def readEntry (concat : Int) (data : Bytes) : Except ZipError ZipInfo :=
  if (data.take 46).length ≠ 46 then .error .badZipFile
  else if fieldsAt structCentralDir data 0 ≠ stringCentralDir then
    .error .badZipFile
  else
    match decodeName (fieldsAt structCentralDir data 5)
        ((data.drop 46).take (fieldsAt structCentralDir data 12)) with
    | none => .error .value
    | some name =>
      if fieldsAt structCentralDir data 3 > 63 then .error .runtime
      else
        match decodeExtra data.length
            ((data.drop (46 + fieldsAt structCentralDir data 12)).take
              (fieldsAt structCentralDir data 13))
            (entryOf data name
              ((data.drop (46 + fieldsAt structCentralDir data 12)).take
                (fieldsAt structCentralDir data 13))
              ((data.drop (46 + fieldsAt structCentralDir data 12 +
                fieldsAt structCentralDir data 13)).take
                (fieldsAt structCentralDir data 14))) with
        | .error e => .error e
        | .ok x => .ok { x with headerOffset := x.headerOffset + concat }

/-- How much of the directory an entry takes, by its own account. -/
def entryLength (data : Bytes) : Nat :=
  46 + fieldsAt structCentralDir data 12 + fieldsAt structCentralDir data 13 +
    fieldsAt structCentralDir data 14

/-- The entries of a directory of `left` bytes. An entry takes some of `data`,
so its length bounds their number. -/
def readEntries (concat : Int) : Nat → Nat → Bytes →
    Except ZipError (List ZipInfo)
  | 0, left, _ => if left = 0 then .ok [] else .error .badZipFile
  | n + 1, left, data =>
    if left = 0 then .ok []
    else
      match readEntry concat data with
      | .error e => .error e
      | .ok x =>
        (readEntries concat n (left - entryLength data)
          (data.drop (entryLength data))).map (x :: ·)

/-- Each entry, from the last header to the first, ends where the one before it
begins. -/
def assignEnds : Int → List (ZipInfo × Nat) → List (ZipInfo × Nat)
  | _, [] => []
  | endOffset, (x, i) :: rest =>
    ({ x with endOffset := some endOffset }, i) ::
      assignEnds x.headerOffset rest

def setEndOffsets (startDir : Int) (infos : List ZipInfo) : List ZipInfo :=
  ((assignEnds startDir (infos.zipIdx.insertionSort fun a b =>
      b.1.headerOffset ≤ a.1.headerOffset)).insertionSort
    fun a b => a.2 ≤ b.2).map (·.1)

structure ZipFile where
  file : Bytes
  comment : Bytes
  infolist : List ZipInfo
  deriving DecidableEq, Repr

/-- `concat` in `_RealGetContents`. -/
def EndRecord.concat (endrec : EndRecord) : Int :=
  endrec.location - endrec.size - endrec.offset -
    (if endrec.signature = stringEndArchive64 then 76 else 0)

/-- `_RealGetContents` -/
def openZip (file : Bytes) : Except ZipError ZipFile :=
  match endRecData file with
  | .error e => .error e
  | .ok endrec =>
    if endrec.offset + endrec.concat < 0 then .error .badZipFile
    else
      match readEntries endrec.concat
          ((file.drop (endrec.offset + endrec.concat).toNat).take
            endrec.size).length endrec.size
          ((file.drop (endrec.offset + endrec.concat).toNat).take
            endrec.size) with
      | .error e => .error e
      | .ok infos =>
        .ok ⟨file, endrec.comment,
          setEndOffsets (endrec.offset + endrec.concat) infos⟩

/-! ## Members -/

/-- What `ZipExtFile.read` returns for a stored member whose data begins at
`start`. -/
def readStored (file : Bytes) (x : ZipInfo) (start : Nat) :
    Except ZipError Bytes :=
  if x.compressSize ≠ 0 ∧ (file.drop start).take x.compressSize = [] then
    .error .eof
  else if ((file.drop start).take x.compressSize).length <
      min x.compressSize x.fileSize then .error .eof
  else if crc32 (((file.drop start).take x.compressSize).take x.fileSize) ≠
      x.crc then .error .badZipFile
  else .ok (((file.drop start).take x.compressSize).take x.fileSize)

/-- Where the data of a member begins whose header is at `start`, if the file
goes on that long. -/
def dataStart (file : Bytes) (start : Nat) : Nat :=
  start + 30 +
    ((file.drop (start + 30)).take
      (fieldsAt structFileHeader (file.drop start) 10)).length +
    ((file.drop (start + 30 +
        ((file.drop (start + 30)).take
          (fieldsAt structFileHeader (file.drop start) 10)).length)).take
      (fieldsAt structFileHeader (file.drop start) 11)).length

/-- `ZipFile.read`, for an entry and no password. -/
def readMember (file : Bytes) (x : ZipInfo) : Except ZipError Bytes :=
  if x.headerOffset < 0 then .error .value
  else if ((file.drop x.headerOffset.toNat).take 30).length ≠ 30 then
    .error .badZipFile
  else if fieldsAt structFileHeader (file.drop x.headerOffset.toNat) 0 ≠
      stringFileHeader then .error .badZipFile
  else if bit x.flagBits 5 ∨ bit x.flagBits 6 then .error .runtime
  else
    match decodeName
        (fieldsAt structFileHeader (file.drop x.headerOffset.toNat) 3)
        ((file.drop (x.headerOffset.toNat + 30)).take
          (fieldsAt structFileHeader (file.drop x.headerOffset.toNat) 10)) with
    | none => .error .value
    | some name =>
      if name ≠ x.origFilename then .error .badZipFile
      else if x.endOffset.any fun endOffset =>
          decide ((dataStart file x.headerOffset.toNat : Int) + x.compressSize >
            endOffset) then .error .badZipFile
      else if bit x.flagBits 0 then .error .runtime
      else if x.compressType ≠ 0 then .error .runtime
      else readStored file x (dataStart file x.headerOffset.toNat)

/-! ## Writing -/

/-- `FileHeader` -/
def fileHeader (x : ZipInfo) : Option Bytes :=
  (structPack
    [(4, stringFileHeader), (1, x.extractVersion), (1, x.reserved),
      (2, (encodeName x.filename x.flagBits).2), (2, x.compressType),
      (2, x.dateTime.dosTime), (2, x.dateTime.dosDate), (4, x.crc),
      (4, x.compressSize), (4, x.fileSize),
      (2, (encodeName x.filename x.flagBits).1.length),
      (2, x.extra.length)]).map
    (· ++ (encodeName x.filename x.flagBits).1 ++ x.extra)

/-- An entry as `_write_end_record` writes it. -/
def centralHeader (x : ZipInfo) : Option Bytes :=
  (structPack
    [(4, stringCentralDir), (1, x.createVersion), (1, x.createSystem),
      (1, x.extractVersion), (1, x.reserved),
      (2, (encodeName x.filename x.flagBits).2), (2, x.compressType),
      (2, x.dateTime.dosTime), (2, x.dateTime.dosDate), (4, x.crc),
      (4, x.compressSize), (4, x.fileSize),
      (2, (encodeName x.filename x.flagBits).1.length), (2, x.extra.length),
      (2, x.comment.length), (2, 0), (2, x.internalAttr), (4, x.externalAttr),
      (4, x.headerOffset.toNat)]).map
    (· ++ (encodeName x.filename x.flagBits).1 ++ x.extra ++ x.comment)

/-- An archive that is being written. -/
structure Writer where
  out : Bytes := []
  filelist : List ZipInfo := []

/-- The entry `writestr` makes for a stored member. -/
def ZipInfo.written (x : ZipInfo) (data : Bytes) (offset : Nat) : ZipInfo :=
  { x with
    flagBits := 0
    externalAttr := if x.externalAttr = 0 then 0o600 <<< 16 else x.externalAttr
    headerOffset := offset
    crc := crc32 data
    compressSize := data.length
    fileSize := data.length }

/-- `writestr`, with `allowZip64=False`. -/
def writestr (x : ZipInfo) (data : Bytes) (w : Writer) :
    Except ZipError Writer :=
  if data.length * 105 > zip64Limit * 100 ∨
      w.filelist.length ≥ zipFilecountLimit ∨ data.length > zip64Limit ∨
      w.out.length > zip64Limit then .error .largeZipFile
  else
    match fileHeader (x.written data w.out.length) with
    | none => .error .badZipFile
    | some header =>
      .ok
        { out := w.out ++ header ++ data
          filelist := w.filelist ++ [x.written data w.out.length] }

/-- The end record of an archive without a comment. -/
def endRecord (count size offset : Nat) : Option Bytes :=
  structPack [(4, stringEndArchive), (2, 0), (2, 0), (2, count), (2, count),
    (4, size), (4, offset), (2, 0)]

/-- `close`, likewise. -/
def closeZip (w : Writer) : Except ZipError Bytes :=
  match w.filelist.mapM centralHeader with
  | none => .error .badZipFile
  | some directory =>
    if w.filelist.length > zipFilecountLimit ∨ w.out.length > zip64Limit ∨
        directory.flatten.length > zip64Limit then .error .largeZipFile
    else
      match endRecord w.filelist.length directory.flatten.length
          w.out.length with
      | none => .error .badZipFile
      | some record => .ok (w.out ++ directory.flatten ++ record)

/-- An archive of these members, in this order. -/
def writeZip (members : List (ZipInfo × Bytes)) : Except ZipError Bytes :=
  match members.foldlM (fun w m => writestr m.1 m.2 w) {} with
  | .error e => .error e
  | .ok w => closeZip w

end NodeLink.Lib.Zip
