import NodeLink.Lib.ZipSpelling
import NodeLink.Proofs.EvidencePackages

/-!
# One archive, many files

An archive that is read is written again from its members as the same file if
it leaves no room, and only then. The reader checks what the directory says of
each member, but not where the file begins and ends, what lies between its
parts, nor what the headers and the end record say besides.
-/

namespace NodeLink.Proofs.ArchiveSpelling

open Lib Lib.Zip Server.EvidencePackages Proofs.EvidencePackages

/-- There is no room in the file for what `serialize_archive` does not write. -/
def Spelled (payload : Bytes) : Prop :=
  ∀ endrec archive, endRecData payload = .ok endrec →
    openZip payload = .ok archive → Tight payload endrec archive.infolist

/-! ## Members that are read -/

/-- An entry that has been checked, and the member that has been read. -/
structure Checked (file : Bytes) (info : ZipInfo) (member : String × Bytes) :
    Prop where
  checks : checkMember info = .ok ()
  content : readMember file info = .ok member.2
  path : member.1 = info.filename

theorem checked_of_members {file : Bytes} {maxBytes total : Nat}
    {infos : List ZipInfo} {members : List (String × Bytes)}
    (h : readArchiveMembers file maxBytes total infos = .ok members) :
    List.Forall₂ (Checked file) infos members := by
  induction infos generalizing total members with
  | nil =>
      cases h
      exact .nil
  | cons info infos ih =>
      simp only [readArchiveMembers, bind_eq_ok, ofZip_eq_ok] at h
      obtain ⟨_, hcheck, _, _, content, hcontent, rest, hrest, h⟩ := h
      cases h
      exact .cons ⟨hcheck, hcontent, rfl⟩ (ih hrest)

theorem checked_of_readArchive {maxBytes : Nat} {payload : Bytes}
    {members : List (String × Bytes)}
    (h : readArchive maxBytes payload = .ok members) :
    ∃ archive, openZip payload = .ok archive ∧
      List.Forall₂ (Checked payload) archive.infolist members := by
  simp only [readArchive, bind_eq_ok, require_eq_ok, ofZip_eq_ok] at h
  obtain ⟨_, _, archive, hopen, _, _, _, _, _, _, h⟩ := h
  refine ⟨archive, hopen, ?_⟩
  have hfile : archive.file = payload := by
    obtain ⟨_, _, _, _, rfl⟩ := openZip_eq_ok hopen
    rfl
  rw [← hfile]
  exact checked_of_members h

/-- An entry that says nothing besides what is checked. -/
structure Silent (info : ZipInfo) : Prop where
  ascii : ∀ c ∈ info.filename.toList, 0 < c.toNat ∧ c.toNat < 128
  reserved : info.reserved = 0
  volume : info.volume = 0
  orig : info.origFilename = info.filename
  place : 0 ≤ info.headerOffset

/-- The silent entry of a checked member is the one that is written. -/
theorem Checked.reads {file : Bytes} {info : ZipInfo} {member : String × Bytes}
    (h : Checked file info member) (hinfo : Silent info) :
    Reads file info (zipInfo member.1, member.2) := by
  have hchecks := h.checks
  simp only [checkMember, bind_eq_ok, require_eq_ok] at hchecks
  obtain ⟨_, _, _, _, _, hstored, _, ⟨hdate, hsystem, hcreate, hextract, hflags,
    hinternal, hexternal, hextra, hcomment⟩, _, hsizes⟩ := hchecks
  obtain ⟨hcrc, hlength⟩ := spec_of_readMember h.content hsizes
  obtain ⟨hascii, hreserved, hvolume, horig, hplace⟩ := hinfo
  rw [h.path]
  refine ⟨plain_zipInfo hascii, ?_, h.content⟩
  have hoffset : (info.headerOffset.toNat : Int) = info.headerOffset :=
    Int.toNat_of_nonneg hplace
  have hset : (if (zipInfo info.filename).externalAttr = 0 then 0o600 <<< 16
      else (zipInfo info.filename).externalAttr) = zipMode :=
    if_neg (show ¬ zipMode = 0 by decide)
  rw [ZipInfo.written, hset]
  cases info
  simp only at *
  simp only [ZipInfo.bare, zipInfo, hoffset, hcrc, hlength, hdate, hstored,
    hcomment, hextra, hsystem, hcreate, hextract, hreserved, hflags, hvolume,
    hinternal, hexternal, horig, hsizes]

/-! ## One encoding -/

theorem length_of_archivePaths :
    ∀ path ∈ archivePaths, path.length ≤ 64 := by
  decide +kernel

theorem exists_of_forall₂ {α β : Type} {R : α → β → Prop} {l : List α}
    {m : List β} (h : List.Forall₂ R l m) : ∀ a ∈ l, ∃ b ∈ m, R a b := by
  induction h with
  | nil => exact nofun
  | @cons a b l m hab _ ih =>
      refine List.forall_mem_cons.mpr ⟨⟨b, List.mem_cons_self, hab⟩, ?_⟩
      intro c hc
      obtain ⟨d, hd, hcd⟩ := ih c hc
      exact ⟨d, List.mem_cons_of_mem _ hd, hcd⟩

/-- The bounds of an entry of the archive. -/
theorem Checked.bounds {file : Bytes} {info : ZipInfo}
    {member : String × Bytes} (h : Checked file info member)
    (hpath : member.1 ∈ archivePaths) :
    info.filename.length ≤ 64 ∧ info.compressSize ≤ maxMemberBytes ∧
      member.2.length = info.compressSize := by
  have hchecks := h.checks
  simp only [checkMember, bind_eq_ok, require_eq_ok] at hchecks
  obtain ⟨_, _, _, _, _, _, _, _, hsize, hsizes⟩ := hchecks
  exact ⟨length_of_archivePaths _ (h.path ▸ hpath), hsizes ▸ hsize,
    (spec_of_readMember h.content hsizes).2⟩

/-- A file without room is what is written from its members. -/
theorem serializeArchive_of_tight {maxBytes : Nat} {payload : Bytes}
    {members : List (String × Bytes)} {endrec : EndRecord} {archive : ZipFile}
    (hread : readArchive maxBytes payload = .ok members)
    (hend : endRecData payload = .ok endrec)
    (hopen : openZip payload = .ok archive)
    (h : Tight payload endrec archive.infolist) :
    serializeArchive members = .ok payload := by
  obtain ⟨archive', hopen', hchecked⟩ := checked_of_readArchive hread
  obtain rfl := Except.ok.inj (hopen.symm.trans hopen')
  have hpaths := names_of_readArchive hread
  have hmember : ∀ m ∈ members, m.1 ∈ archivePaths := mem_archivePaths hpaths
  have hcount : members.length = 7 := by
    have hlength := congrArg List.length hpaths
    rw [List.length_map] at hlength
    exact hlength
  have hbounds : ∀ x ∈ archive.infolist,
      x.filename.length ≤ 64 ∧ x.compressSize ≤ maxMemberBytes := by
    intro x hx
    obtain ⟨m, hm, hxm⟩ := exists_of_forall₂ hchecked x hx
    exact ⟨(hxm.bounds (hmember m hm)).1, (hxm.bounds (hmember m hm)).2.1⟩
  have hsilent : ∀ x ∈ archive.infolist, Silent x := by
    intro x hx
    obtain ⟨m, hm, hxm⟩ := exists_of_forall₂ hchecked x hx
    obtain ⟨hreserved, hvolume, horig⟩ := h.entries x hx
    exact ⟨hxm.path ▸ archivePaths_ascii m.1 (hmember m hm), hreserved, hvolume,
      horig, offset_of_adjacent h.members x hx⟩
  have hreads : List.Forall₂ (Reads payload) archive.infolist
      (members.map fun e => (zipInfo e.1, e.2)) := by
    have hboth : List.Forall₂ (fun x m => Silent x ∧ Checked payload x m)
        archive.infolist members :=
      (List.forall₂_and_left _ _).mpr ⟨hsilent, hchecked⟩
    rw [List.forall₂_map_right_iff]
    exact hboth.imp fun x m hxm => hxm.2.reads hxm.1
  have hinfos : archive.infolist.length = 7 :=
    hchecked.length_eq.trans hcount
  have hdata : ∀ m ∈ members.map fun e => (zipInfo e.1, e.2),
      m.2.length ≤ 2 ^ 30 := by
    intro q hq
    obtain ⟨m, hm, rfl⟩ := List.mem_map.mp hq
    obtain ⟨x, hx, hxm⟩ := exists_of_forall₂ hchecked.flip m hm
    obtain ⟨-, hsmall, hlength⟩ := hxm.bounds (hmember m hm)
    rw [maxMemberBytes] at hsmall
    rw [hlength]
    omega
  have hsize : payload.length ≤ 2 ^ 30 := by
    have hoffset := stop_le_of_adjacent (30 + 64 + maxMemberBytes) h.members
      fun x hx => by
        have := hbounds x hx
        omega
    have hdirectory := length_le_of_filled (46 + 64) h.filled fun x hx => by
      have := hbounds x hx
      omega
    have hlast := h.last
    have hplace := h.directory
    rw [hinfos, maxMemberBytes] at hoffset
    rw [hinfos, List.length_take, List.length_drop] at hdirectory
    omega
  refine writeZip_of_tight hend hopen h hreads ?_ hdata hsize
  rw [List.length_map, hcount]
  decide

/-- What is written from members with these paths leaves no room. -/
theorem tight_of_serializeArchive {payload : Bytes}
    {members : List (String × Bytes)} {endrec : EndRecord} {archive : ZipFile}
    (hpaths : members.map (·.1) = archivePaths)
    (h : serializeArchive members = .ok payload)
    (hend : endRecData payload = .ok endrec)
    (hopen : openZip payload = .ok archive) :
    Tight payload endrec archive.infolist := by
  obtain ⟨infos, out, directory, record, rfl, hparts⟩ := parts_of_writeZip h
  refine tight_of_parts (plain_of_archivePaths hpaths) ?_ hparts
    (noLocator_of_archivePaths hpaths hparts) hend hopen
  intro m hm
  obtain ⟨e, -, rfl⟩ := List.mem_map.mp hm
  rfl

theorem serializeArchive_iff_spelled {maxBytes : Nat} {payload : Bytes}
    {members : List (String × Bytes)}
    (hread : readArchive maxBytes payload = .ok members) :
    serializeArchive members = .ok payload ↔ Spelled payload := by
  constructor
  · intro h endrec archive hend hopen
    exact tight_of_serializeArchive (names_of_readArchive hread) h hend hopen
  · intro h
    obtain ⟨archive, hopen, -⟩ := checked_of_readArchive hread
    obtain ⟨endrec, _, hend, -, -⟩ := openZip_eq_ok hopen
    exact serializeArchive_of_tight hread hend hopen
      (h endrec archive hend hopen)

/-- A file that is read as these members is what is written from them exactly
if it leaves no room, and no other file that leaves none is read as them. -/
theorem archive_spelled_iff (maxBytes : Nat) (payload : Bytes)
    (members : List (String × Bytes))
    (hread : readArchive maxBytes payload = .ok members) :
    (serializeArchive members = .ok payload ↔ Spelled payload) ∧
      ∀ other, readArchive maxBytes other = .ok members → Spelled payload →
        Spelled other → other = payload := by
  refine ⟨serializeArchive_iff_spelled hread, ?_⟩
  intro other hother hpayload hspelled
  have hwritten := (serializeArchive_iff_spelled hread).mpr hpayload
  have hagain := (serializeArchive_iff_spelled hother).mpr hspelled
  exact Except.ok.inj (hagain.symm.trans hwritten)

/-! ## A byte in front -/

/-- An archive of empty members. -/
def emptyMembers : List (String × Bytes) :=
  archivePaths.map fun path => (path, [])

def emptyArchive : Bytes := (serializeArchive emptyMembers).toOption.getD []

theorem readArchive_emptyArchive :
    (serializeArchive emptyMembers).toOption.isSome = true ∧
      (readArchive maxArchiveBytes emptyArchive).toOption =
        some emptyMembers ∧
      (readArchive maxArchiveBytes (0 :: emptyArchive)).toOption =
        some emptyMembers := by
  decide +kernel

theorem serializeArchive_emptyMembers :
    serializeArchive emptyMembers = .ok emptyArchive := by
  obtain ⟨file, hfile⟩ := Option.isSome_iff_exists.mp readArchive_emptyArchive.1
  rw [emptyArchive, hfile]
  exact eq_ok_of_toOption hfile

theorem archive_spelled_empty :
    readArchive maxArchiveBytes emptyArchive = .ok emptyMembers ∧
      (serializeArchive emptyMembers = .ok emptyArchive ↔
        Spelled emptyArchive) := by
  have hread : readArchive maxArchiveBytes emptyArchive = .ok emptyMembers :=
    eq_ok_of_toOption readArchive_emptyArchive.2.1
  exact ⟨hread,
    (archive_spelled_iff maxArchiveBytes emptyArchive emptyMembers hread).1⟩

/-- With a byte in front the file is read as the same members. -/
theorem archive_respelled :
    readArchive maxArchiveBytes emptyArchive = .ok emptyMembers ∧
      readArchive maxArchiveBytes (0 :: emptyArchive) = .ok emptyMembers ∧
      serializeArchive emptyMembers ≠ .ok (0 :: emptyArchive) := by
  refine ⟨eq_ok_of_toOption readArchive_emptyArchive.2.1,
    eq_ok_of_toOption readArchive_emptyArchive.2.2, fun h => ?_⟩
  rw [serializeArchive_emptyMembers] at h
  exact List.cons_ne_self _ _ (Except.ok.inj h).symm

end NodeLink.Proofs.ArchiveSpelling
