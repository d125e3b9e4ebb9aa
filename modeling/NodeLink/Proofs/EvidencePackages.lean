import NodeLink.Lib.ZipRoundTrip
import NodeLink.Server.EvidencePackages

/-!
# Packages bind their members

Whatever bytes are sent, a package that verifies has the members of its
manifest and no others, each with the size and the digest listed there, and the
trusted key signed that manifest. Two packages that verify with one manifest
have one content, unless they are a collision of the digest. And what is built
is read back, member by member.
-/

namespace NodeLink.Proofs.EvidencePackages

open Lib Lib.Zip Server.EvidencePackages

variable {P : Type} {lib : PackageLibrary P}

/-! ## What the archive reader returns -/

theorem lookup_of_mem {α β : Type} [BEq α] [LawfulBEq α] {l : List (α × β)}
    (hnodup : (l.map (·.1)).Nodup) {a : α} {b : β} (h : (a, b) ∈ l) :
    l.lookup a = some b := by
  induction l with
  | nil => cases h
  | cons p l ih =>
      obtain ⟨a', b'⟩ := p
      rw [List.map_cons, List.nodup_cons] at hnodup
      rcases List.mem_cons.mp h with heq | hmem
      · cases heq
        exact List.lookup_cons_self
      · have hne : (a == a') = false := by
          rw [beq_eq_false_iff_ne]
          rintro rfl
          exact hnodup.1 (List.mem_map.mpr ⟨(a, b), hmem, rfl⟩)
        rw [List.lookup_cons, hne]
        exact ih hnodup.2 hmem

theorem ofZip_eq_ok {α : Type} {x : Except ZipError α} {a : α} :
    ofZip x = .ok a ↔ x = .ok a := by
  cases x with
  | ok b => simp only [ofZip, Except.ok.injEq]
  | error e => simp only [ofZip, reduceCtorEq]

theorem names_of_members {file : Bytes} {maxBytes total : Nat}
    {infos : List ZipInfo} {members : List (String × Bytes)}
    (h : readArchiveMembers file maxBytes total infos = .ok members) :
    members.map (·.1) = infos.map (·.filename) := by
  induction infos generalizing total members with
  | nil =>
      cases h
      rfl
  | cons info infos ih =>
      simp only [readArchiveMembers, bind_eq_ok] at h
      obtain ⟨_, _, _, _, content, _, rest, hrest, h⟩ := h
      cases h
      rw [List.map_cons, List.map_cons, ih hrest]

theorem archivePaths_nodup : archivePaths.Nodup := by decide

theorem names_of_readArchive {maxBytes : Nat} {payload : Bytes}
    {members : List (String × Bytes)}
    (h : readArchive maxBytes payload = .ok members) :
    members.map (·.1) = archivePaths := by
  simp only [readArchive, bind_eq_ok, require_eq_ok] at h
  obtain ⟨_, _, archive, _, _, _, _, _, _, ⟨hnames, _⟩, h⟩ := h
  rw [names_of_members h, hnames]

/-- The manifest, the signature record, and the content behind them. -/
theorem members_of_readArchive {maxBytes : Nat} {payload : Bytes}
    {members : List (String × Bytes)}
    (h : readArchive maxBytes payload = .ok members) :
    ∃ manifestJson signatureJson content,
      members = (manifestPath, manifestJson) ::
        (signaturePath, signatureJson) :: content ∧
      content.map (·.1) = contentPaths := by
  have hnames := names_of_readArchive h
  match members, hnames with
  | (p, manifestJson) :: (q, signatureJson) :: content, hnames =>
    rw [List.map_cons, List.map_cons, archivePaths] at hnames
    obtain ⟨hp, hnames⟩ := List.cons.inj hnames
    obtain ⟨hq, hnames⟩ := List.cons.inj hnames
    simp only at hp hq
    exact ⟨manifestJson, signatureJson, content, by rw [hp, hq], hnames⟩

/-! ## What verification checks -/

/-- A file descriptor of a manifest, and the member it describes. -/
structure Listed (lib : PackageLibrary P) (file : Members)
    (member : String × Bytes) : Prop where
  path : strOf (PyValue.get file "path") = some member.1
  size : intOf (PyValue.get file "size_bytes") = some member.2.length
  digest : strOf (PyValue.get file "sha256") = some (lib.sha256 member.2)

/-- The manifest lists exactly these members, and `key` has signed it. -/
structure Binds (lib : PackageLibrary P) (key : Ed25519PublicKey)
    (manifestJson : Bytes) (content : List (String × Bytes)) : Prop where
  listed : ∃ manifest files,
    loadCanonicalObject lib manifestJson "package manifest" = .ok manifest ∧
      manifestFiles manifest = some files ∧
      List.Forall₂ (Listed lib) files content
  paths : content.map (·.1) = contentPaths
  signed : ∃ signature,
    lib.verify key signature (signingContext ++ manifestJson) = true

theorem orRaise_eq_ok {α : Type} {x : Option α} {a : α} :
    orRaise x = .ok a ↔ x = some a := by
  cases x with
  | none => simp only [orRaise, reduceCtorEq]
  | some b => simp only [orRaise, Except.ok.injEq, Option.some.injEq]

theorem listed_of_checkFiles {members content : List (String × Bytes)}
    {files : List Members} (h : checkFiles lib members files = .ok ())
    (hpaths : files.map (fun file => strOf (PyValue.get file "path")) =
      content.map fun m => some m.1)
    (hmembers : ∀ m ∈ content, members.lookup m.1 = some m.2) :
    List.Forall₂ (Listed lib) files content := by
  induction files generalizing content with
  | nil =>
      rw [List.map_nil, eq_comm, List.map_eq_nil_iff] at hpaths
      rw [hpaths]
      exact .nil
  | cons file files ih =>
      cases content with
      | nil => cases hpaths
      | cons m content =>
          rw [List.map_cons, List.map_cons] at hpaths
          obtain ⟨hpath, hpaths⟩ := List.cons.inj hpaths
          simp only [checkFiles, memberOf, bind_eq_ok, require_eq_ok,
            orRaise_eq_ok, hpath] at h
          obtain ⟨path, hm, bytes, hbytes, _, ⟨hsize, hdigest⟩, hrest⟩ := h
          cases hm
          rw [hmembers m List.mem_cons_self] at hbytes
          cases hbytes
          exact .cons ⟨hpath, hsize, hdigest⟩
            (ih hrest hpaths fun q hq => hmembers q (List.mem_cons_of_mem _ hq))

theorem paths_of_verifyPackageManifest {manifest : Members}
    {result : String × String × Members}
    (h : verifyPackageManifest lib manifest = .ok result) :
    ∃ files, manifestFiles manifest = some files ∧
      files.map (fun file => strOf (PyValue.get file "path")) =
        contentPaths.map some := by
  simp only [verifyPackageManifest, bind_eq_ok, require_eq_ok] at h
  obtain ⟨_, _, _, _, _, hpaths, _⟩ := h
  exact Option.map_eq_some_iff.mp hpaths

theorem verified_of_checkSignature {key : Ed25519PublicKey} {packageId : String}
    {signature : Members} {manifestJson : Bytes}
    (h : checkSignature lib key packageId signature manifestJson = .ok ()) :
    ∃ bytes, lib.verify key bytes (signingContext ++ manifestJson) = true := by
  simp only [checkSignature, bind_eq_ok, require_eq_ok] at h
  obtain ⟨_, _, _, _, hverify⟩ := h
  obtain ⟨bytes, _, hbytes⟩ := (Option.any_eq_true _ _).mp hverify
  exact ⟨bytes, hbytes⟩

theorem loadEd25519PublicKey_eq_ok {payload : Bytes} {label : String}
    {key : Ed25519PublicKey} :
    loadEd25519PublicKey lib payload label = .ok key ↔
      lib.loadPublicKey payload = .ed25519 key := by
  unfold loadEd25519PublicKey
  cases lib.loadPublicKey payload with
  | ed25519 k => simp only [Except.ok.injEq, LoadedKey.ed25519.injEq]
  | other => simp only [reduceCtorEq]
  | invalid => simp only [reduceCtorEq]
  | raised => simp only [reduceCtorEq]

/-- A pin that holds names the included key. -/
theorem trusted_of_checkTrusted {included : Ed25519PublicKey} {pem : Bytes}
    {trustedMatch : Bool}
    (h : checkTrusted lib included (some pem) = .ok trustedMatch) :
    lib.loadPublicKey pem = .ed25519 included ∧ trustedMatch = true := by
  simp only [checkTrusted, bind_eq_ok, require_eq_ok,
    loadEd25519PublicKey_eq_ok] at h
  obtain ⟨trusted, hload, _, hder, h⟩ := h
  cases h
  rw [Ed25519PublicKey.der_injective hder] at hload
  exact ⟨hload, rfl⟩

/-- What a package is that verifies under a trusted key. -/
theorem binds_of_verify {payload pem : Bytes} {v : PackageVerification}
    (h : verifySignedPackage lib payload (some pem) = .ok v) :
    v.trustedKeyMatched = true ∧
      ∃ key manifestJson signatureJson content,
        lib.loadPublicKey pem = .ed25519 key ∧
        readArchive maxArchiveBytes payload = .ok ((manifestPath, manifestJson) ::
          (signaturePath, signatureJson) :: content) ∧
        Binds lib key manifestJson content := by
  simp only [verifySignedPackage, memberOf, bind_eq_ok, orRaise_eq_ok,
    require_eq_ok, loadEd25519PublicKey_eq_ok] at h
  obtain ⟨members, hread, manifestJson, hmanifestJson, manifest, hmanifest,
    signatureJson, _, signature, _, result, hresult, _, hfiles, includedPem, _,
    included, _, _, _, trustedMatch, htrusted, _, hsignature, bundleId, _, h⟩ := h
  cases h
  obtain ⟨manifestJson', signatureJson', content, rfl, hpaths⟩ :=
    members_of_readArchive hread
  obtain ⟨files, hlist, hfilePaths⟩ := paths_of_verifyPackageManifest hresult
  obtain ⟨hload, htrue⟩ := trusted_of_checkTrusted htrusted
  have hnodup := names_of_readArchive hread ▸ archivePaths_nodup
  have hjson : manifestJson = manifestJson' := by
    rw [lookup_of_mem hnodup List.mem_cons_self] at hmanifestJson
    exact (Option.some.inj hmanifestJson).symm
  rw [hjson] at hmanifest hsignature
  rw [hlist] at hfiles
  have hcontent : files.map (fun file => strOf (PyValue.get file "path")) =
      content.map fun m => some m.1 := by
    rw [hfilePaths, ← hpaths, List.map_map]
    rfl
  refine ⟨htrue, included, manifestJson', signatureJson', content, hload, hread,
    ⟨manifest, files, hmanifest, hlist, ?_⟩, hpaths,
    verified_of_checkSignature hsignature⟩
  refine listed_of_checkFiles hfiles hcontent fun m hm => ?_
  exact lookup_of_mem hnodup
    (List.mem_cons_of_mem _ (List.mem_cons_of_mem _ hm))

/-! ## One manifest, one content -/

/-- Two byte strings with one digest. -/
def Collision (lib : PackageLibrary P) : Prop :=
  ∃ a b : Bytes, a ≠ b ∧ lib.sha256 a = lib.sha256 b

theorem content_unique {files : List Members}
    {content content' : List (String × Bytes)}
    (h : List.Forall₂ (Listed lib) files content)
    (h' : List.Forall₂ (Listed lib) files content') :
    content = content' ∨ Collision lib := by
  induction h generalizing content' with
  | nil =>
      cases h'
      exact .inl rfl
  | @cons file m files content hm _ ih =>
      cases h' with
      | @cons _ m' _ content' hm' hrest' =>
          rcases ih hrest' with rfl | hcollision
          · by_cases hbytes : m.2 = m'.2
            · have hpath : m.1 = m'.1 :=
                Option.some.inj (hm.path.symm.trans hm'.path)
              exact .inl (by rw [Prod.ext hpath hbytes])
            · exact .inr ⟨m.2, m'.2, hbytes,
                Option.some.inj (hm.digest.symm.trans hm'.digest)⟩
          · exact .inr hcollision

theorem Binds.unique {key key' : Ed25519PublicKey} {manifestJson : Bytes}
    {content content' : List (String × Bytes)}
    (h : Binds lib key manifestJson content)
    (h' : Binds lib key' manifestJson content') :
    content = content' ∨ Collision lib := by
  obtain ⟨manifest, files, hload, hfiles, hlisted⟩ := h.listed
  obtain ⟨manifest', files', hload', hfiles', hlisted'⟩ := h'.listed
  cases hload.symm.trans hload'
  cases hfiles.symm.trans hfiles'
  exact content_unique hlisted hlisted'

/-! ## What is built is read back -/

theorem zipTimestamp_ofDos :
    DateTime.ofDos zipTimestamp.dosDate zipTimestamp.dosTime = zipTimestamp := by
  decide

theorem plain_zipInfo {path : String}
    (hascii : ∀ c ∈ path.toList, 0 < c.toNat ∧ c.toNat < 128) :
    Plain (zipInfo path) where
  ascii := hascii
  orig := rfl
  date := zipTimestamp_ofDos
  version := Nat.le_of_ble_eq_true rfl
  stored := rfl
  extra := rfl
  comment := rfl
  volume := rfl
  endOffset := rfl

theorem archivePaths_ascii : ∀ path ∈ archivePaths,
    ∀ c ∈ path.toList, 0 < c.toNat ∧ c.toNat < 128 := by
  have hall : (archivePaths.all fun path => path.toList.all fun c =>
      decide (0 < c.toNat) && decide (c.toNat < 128)) = true := by
    decide +kernel
  simpa using hall

theorem mem_archivePaths {entries : List (String × Bytes)}
    (h : entries.map (·.1) = archivePaths) :
    ∀ e ∈ entries, e.1 ∈ archivePaths := by
  intro e he
  rw [← h]
  exact List.mem_map.mpr ⟨e, he, rfl⟩

/-- The reader returns what the archive was written from. -/
theorem members_of_describes {file : Bytes} {maxBytes total : Nat}
    {infos : List ZipInfo} {entries members : List (String × Bytes)}
    (h : List.Forall₂ (fun x m => Describes x m ∧ readMember file x = .ok m.2)
      infos (entries.map fun e => (zipInfo e.1, e.2)))
    (hread : readArchiveMembers file maxBytes total infos = .ok members) :
    members = entries := by
  induction entries generalizing infos total members with
  | nil =>
      cases h
      cases hread
      rfl
  | cons e entries ih =>
      cases h with
      | @cons info _ infos _ hinfo hrest =>
          obtain ⟨⟨place, endOffset, hinfo⟩, hcontent⟩ := hinfo
          simp only [readArchiveMembers, bind_eq_ok, ofZip_eq_ok] at hread
          obtain ⟨_, _, _, _, content, hmember, rest, hreadRest, hread⟩ := hread
          cases hread
          rw [hcontent] at hmember
          cases hmember
          rw [ih hrest hreadRest, hinfo]
          rfl

theorem plain_of_archivePaths {entries : List (String × Bytes)}
    (hpaths : entries.map (·.1) = archivePaths) :
    ∀ m ∈ entries.map fun e => (zipInfo e.1, e.2), Plain m.1 := by
  intro m hm
  obtain ⟨e, he, rfl⟩ := List.mem_map.mp hm
  exact plain_zipInfo (archivePaths_ascii e.1 (mem_archivePaths hpaths e he))

theorem noLocator_of_archivePaths {entries : List (String × Bytes)}
    {infos : List ZipInfo} {out directory record : Bytes}
    (hpaths : entries.map (·.1) = archivePaths)
    (hparts : Parts (entries.map fun e => (zipInfo e.1, e.2)) infos out
      directory record) : NoLocator (out ++ directory) record := by
  obtain ⟨front, text, hentries⟩ : ∃ front text,
      entries = front ++ [(instructionsPath, text)] := by
    rcases List.eq_nil_or_concat entries with rfl | ⟨front, last, rfl⟩
    · cases hpaths
    · rw [List.concat_eq_append, List.map_append] at hpaths
      have hpaths : front.map Prod.fst ++ [last.1] =
          archivePaths.dropLast ++ [instructionsPath] := hpaths
      have hlast : [last.1] = [instructionsPath] :=
        (List.append_inj' hpaths rfl).2
      obtain ⟨path, text⟩ := last
      cases hlast
      exact ⟨front, text, List.concat_eq_append⟩
  rw [hentries, List.map_append] at hparts
  have hmem : instructionsPath ∈ archivePaths := by decide
  have hname : instructionsPath.length = 10 := by decide
  have hset : zipMode ≠ 0 := by decide
  have hmode : zipMode % 65536 = 0 := by decide
  exact hparts.noLocator (plain_zipInfo (archivePaths_ascii _ hmem)) hname rfl
    hset hmode

/-- An archive of these paths is read back, when it is read at all. -/
theorem readArchive_serializeArchive {entries members : List (String × Bytes)}
    {archive : Bytes} {maxBytes : Nat}
    (hpaths : entries.map (·.1) = archivePaths)
    (h : serializeArchive entries = .ok archive)
    (hread : readArchive maxBytes archive = .ok members) : members = entries := by
  obtain ⟨infos, out, directory, record, rfl, hparts⟩ := parts_of_writeZip h
  obtain ⟨infos', hopen, hmembers⟩ :=
    openZip_of_parts (plain_of_archivePaths hpaths) hparts
      (noLocator_of_archivePaths hpaths hparts)
  simp only [readArchive, bind_eq_ok, require_eq_ok, ofZip_eq_ok] at hread
  obtain ⟨_, _, file, hfile, _, _, _, _, _, _, hread⟩ := hread
  rw [hopen] at hfile
  cases hfile
  exact members_of_describes hmembers hread

theorem orRaiseBuild_eq_ok {α : Type} {x : Option α} {a : α} :
    orRaiseBuild x = .ok a ↔ x = some a := by
  cases x with
  | none => simp only [orRaiseBuild, reduceCtorEq]
  | some b => simp only [orRaiseBuild, Except.ok.injEq, Option.some.injEq]

theorem paths_of_packageEntries {key : SigningKey P} {pem : Bytes}
    {publicKey : Ed25519PublicKey} {artifact : BundleArtifact}
    {entries : List (String × Bytes)} {packageId : String} {manifest : PyValue}
    (h : packageEntries lib key pem publicKey artifact =
      .ok (entries, packageId, manifest)) :
    entries.map (·.1) = archivePaths := by
  simp only [packageEntries, packageContent, bind_eq_ok] at h
  obtain ⟨content, ⟨_, _, _, _, _, _, _, _, hcontent⟩, _, _, _, _, _, _, _, _, _,
    _, h⟩ := h
  cases hcontent
  cases h
  rfl

/-- The steps of a build that succeeds. -/
theorem buildSignedPackage_eq_ok {active : Option (SigningKey P)}
    {artifact : BundleArtifact} {maxBytes : Nat} {package : PackageArtifact}
    (h : buildSignedPackage lib active artifact maxBytes = .ok package) :
    ∃ key pem publicKey entries v,
      signingMaterial lib active = .ok (key, pem, publicKey) ∧
      packageEntries lib key pem publicKey artifact =
        .ok (entries, package.packageId, package.manifest) ∧
      serializeArchive entries = .ok package.content ∧
      verifySignedPackage lib package.content (some pem) = .ok v := by
  simp only [buildSignedPackage, bind_eq_ok] at h
  obtain ⟨⟨key, pem, publicKey⟩, hkey, ⟨entries, packageId, manifest⟩, hentries,
    _, _, h⟩ := h
  simp only at h
  split at h
  · cases h
  · next archive harchive =>
      obtain ⟨_, _, h⟩ := bind_eq_ok.mp h
      split at h
      · cases h
      · cases h
      · next v hv =>
          cases h
          exact ⟨key, pem, publicKey, entries, v, hkey, hentries, harchive, hv⟩

/-- What is built has the members that went in, and verifies. -/
theorem read_of_build {active : Option (SigningKey P)}
    {artifact : BundleArtifact} {maxBytes : Nat} {package : PackageArtifact}
    (h : buildSignedPackage lib active artifact maxBytes = .ok package) :
    ∃ key pem publicKey entries v,
      signingMaterial lib active = .ok (key, pem, publicKey) ∧
      packageEntries lib key pem publicKey artifact =
        .ok (entries, package.packageId, package.manifest) ∧
      readArchive maxArchiveBytes package.content = .ok entries ∧
      verifySignedPackage lib package.content (some pem) = .ok v ∧
      v.trustedKeyMatched = true := by
  obtain ⟨key, pem, publicKey, entries, v, hkey, hentries, harchive, hv⟩ :=
    buildSignedPackage_eq_ok h
  obtain ⟨htrusted, _, manifestJson, signatureJson, content, _, hread, _⟩ :=
    binds_of_verify hv
  rw [readArchive_serializeArchive (paths_of_packageEntries hentries) harchive
    hread] at hread
  exact ⟨key, pem, publicKey, entries, v, hkey, hentries, hread, hv, htrusted⟩

/-- A package that verifies under a trusted key has exactly the members of the
manifest that key has signed; the manifest decides the content; and a package
that is built is read back and verifies. -/
theorem packages_bind_members {P : Type} (lib : PackageLibrary P) :
    (∀ payload pem v, verifySignedPackage lib payload (some pem) = .ok v →
      v.trustedKeyMatched = true ∧
        ∃ key manifestJson signatureJson content,
          lib.loadPublicKey pem = .ed25519 key ∧
          readArchive maxArchiveBytes payload = .ok
            ((manifestPath, manifestJson) :: (signaturePath, signatureJson) ::
              content) ∧
          Binds lib key manifestJson content ∧
          ∀ payload' pem' v' signatureJson' content',
            verifySignedPackage lib payload' (some pem') = .ok v' →
            readArchive maxArchiveBytes payload' = .ok
              ((manifestPath, manifestJson) :: (signaturePath, signatureJson') ::
                content') →
            content = content' ∨ Collision lib) ∧
    ∀ active artifact maxBytes package,
      buildSignedPackage lib active artifact maxBytes = .ok package →
      ∃ key pem publicKey entries v,
        signingMaterial lib active = .ok (key, pem, publicKey) ∧
        packageEntries lib key pem publicKey artifact =
          .ok (entries, package.packageId, package.manifest) ∧
        readArchive maxArchiveBytes package.content = .ok entries ∧
        verifySignedPackage lib package.content (some pem) = .ok v ∧
        v.trustedKeyMatched = true := by
  refine ⟨?_, fun active artifact maxBytes package h => read_of_build h⟩
  intro payload pem v h
  obtain ⟨htrusted, key, manifestJson, signatureJson, content, hkey, hread,
    hbinds⟩ := binds_of_verify h
  refine ⟨htrusted, key, manifestJson, signatureJson, content, hkey, hread, hbinds,
    ?_⟩
  intro payload' pem' v' signatureJson' content' h' hread'
  obtain ⟨_, key', manifestJson', signatureJson'', content'', _, hread'',
    hbinds'⟩ := binds_of_verify h'
  rw [hread'] at hread''
  cases hread''
  exact hbinds.unique hbinds'

end NodeLink.Proofs.EvidencePackages
