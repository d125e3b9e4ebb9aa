import NodeLink.Lib.Base64
import NodeLink.Lib.Checks
import NodeLink.Lib.Hex
import NodeLink.Lib.PyLoads
import NodeLink.Lib.Trim
import NodeLink.Lib.Zip

/-!
# Evidence packages

The signed ZIP archive of `core/evidence_packages.py`: the canonical manifest
that lists every content member by path, media type, size and digest, the
signature over it, the archive itself, and the verifier that reads it all back.

The digest, the signature scheme, PEM, the text of floats, the layout of the
report and the check of the evidence document come in as `PackageLibrary`.
-/

namespace NodeLink.Server.EvidencePackages

open Lib Lib.Zip

/-! ## Constants -/

def packageFormat : String := "nodelink-evidence-package"
def packageVersion : Int := 1
def signingContextName : String := "nodelink-evidence-package:v1"
def signingContext : Bytes := utf8 (signingContextName ++ ":").toList

def manifestPath : String := "package-manifest.json"
def signaturePath : String := "signature.json"
def evidencePath : String := "evidence/evidence.json"
def reportPath : String := "reports/evidence-summary.pdf"
def receiptsPath : String := "receipts/anchor-receipts.json"
def publicKeyPath : String := "keys/evidence-signing-key.pem"
def instructionsPath : String := "VERIFY.txt"

def contentPaths : List String :=
  [evidencePath, reportPath, receiptsPath, publicKeyPath, instructionsPath]

def archivePaths : List String := manifestPath :: signaturePath :: contentPaths

def maxArchiveBytes : Nat := 64 * 1024 * 1024
def maxMemberBytes : Nat := 48 * 1024 * 1024
def maxPdfBytes : Nat := 2 * 1024 * 1024
def maxArchiveMembers : Nat := archivePaths.length
def zipTimestamp : DateTime := ⟨1980, 1, 1, 0, 0, 0⟩
def zipMode : Nat := 0o100644 <<< 16

/-- `_MEDIA_TYPES` -/
def mediaTypes : List (String × String) :=
  [(evidencePath, "application/vnd.nodelink.evidence+json"),
    (reportPath, "application/pdf"),
    (receiptsPath, "application/json"),
    (publicKeyPath, "application/x-pem-file"),
    (instructionsPath, "text/plain; charset=utf-8")]

/-- The lines of `_VERIFY_TEXT`. -/
def verifyLines : List String := [
  "NodeLink deterministic evidence package v1\n",
  "\n",
  "This archive is not a compliance certification. Verify it with a ",
  "public key\n",
  "obtained from the NodeLink operator through a separate trusted ",
  "channel:\n",
  "\n",
  "  python server/scripts/verify_evidence_package.py PACKAGE.zip ",
  "--trusted-public-key PUBLIC.pem\n",
  "\n",
  "Successful verification proves that the trusted key signed the package\n",
  "manifest and that the manifest binds every packaged file. It also ",
  "verifies the\n",
  "embedded evidence hashes, audit links, Merkle anchor, and receipt ",
  "digests. It\n",
  "does not independently prove that an external WORM destination ",
  "still retains a\n",
  "receipt; inspect the referenced destination under its own access ",
  "controls.\n"]

/-- `_VERIFY_TEXT` -/
def verifyText : Bytes := utf8 (verifyLines.flatMap String.toList)

/-! ## Errors and what is built -/

/-- `PackageVerificationError`, or an exception `verify_signed_package` lets
through. -/
inductive PackageError where
  | verification (message : String)
  | raised
  deriving DecidableEq, Repr

/-- `EvidencePackageError`, or any other exception. -/
inductive BuildError where
  | evidencePackage (code state : String) (statusCode : Nat)
  | raised
  deriving DecidableEq, Repr

/-- An exception `verify_bundle_document` raises that its caller expects, with
its text, or another one. -/
inductive BundleFault where
  | invalid (text : String)
  | raised
  deriving DecidableEq, Repr

/-- `BundleArtifact` -/
structure BundleArtifact where
  document : PyValue
  bundleId : String
  throughSeq : Int

structure PackageArtifact where
  content : Bytes
  packageId : String
  signingKeyId : String
  manifest : PyValue

structure PackageVerification where
  packageId : String
  bundleId : PyValue
  signingKeyId : String
  trustedKeyMatched : Bool

/-- An Ed25519 public key is its 32 bytes. -/
structure Ed25519PublicKey where
  raw : Bytes
  deriving DecidableEq, Repr

/-- `SubjectPublicKeyInfo`, which for this algorithm is a fixed prefix. -/
def Ed25519PublicKey.der (k : Ed25519PublicKey) : Bytes :=
  [0x30, 0x2a, 0x30, 0x05, 0x06, 0x03, 0x2b, 0x65, 0x70, 0x03, 0x21, 0x00] ++
    k.raw

theorem Ed25519PublicKey.der_injective :
    Function.Injective Ed25519PublicKey.der := by
  intro k l h
  have hraw : k.raw = l.raw := List.append_cancel_left h
  cases k
  cases l
  simp only at hraw
  rw [hraw]

/-- What `load_pem_public_key` does: a key, `TypeError` or `ValueError`, or an
exception of another kind. -/
inductive LoadedKey where
  | ed25519 (k : Ed25519PublicKey)
  | other
  | invalid
  | raised
  deriving DecidableEq, Repr

structure PackageLibrary (P : Type) where
  /-- `hashlib.sha256(payload).hexdigest()` -/
  sha256 : Bytes → String
  floats : FloatText
  loadPublicKey : Bytes → LoadedKey
  publicKey : P → Ed25519PublicKey
  sign : P → Bytes → Bytes
  verify : Ed25519PublicKey → Bytes → Bytes → Bool
  renderPdf : BundleArtifact → Option Bytes
  verifyBundleDocument : PyValue → Except BundleFault Unit

/-- The active `SigningKey` with its material loaded. -/
structure SigningKey (P : Type) where
  keyId : String
  publicKeyPem : String
  privateKey : P

/-! ## Values of a document -/

abbrev Members := List (String × PyValue)

def strOf : Option PyValue → Option String
  | some (.str s) => some s
  | _ => none

/-- An `int` that is no `bool`. -/
def intOf : Option PyValue → Option Int
  | some (.num (.int i)) => some i
  | _ => none

def dictOf : Option PyValue → Option Members
  | some (.obj ms) => some ms
  | _ => none

/-- `value[key]` -/
def item (value : PyValue) (key : String) : Option PyValue :=
  match value with
  | .obj ms => PyValue.get ms key
  | _ => none

/-- `set(d) == {...}` -/
def fieldsAre (ms : Members) (fields : List String) : Bool :=
  ms.all (fun m => decide (m.1 ∈ fields)) &&
    fields.all fun f => ms.any fun m => decide (m.1 = f)

/-- `_valid_sha256` -/
def validSha256 (value : Option PyValue) : Bool :=
  match strOf value with
  | some s => decide (s.length = 64) && s.toList.all (· ∈ lowerHexDigits)
  | none => false

/-- `_KEY_ID_RE.fullmatch` -/
def validKeyId (s : String) : Bool :=
  decide (1 ≤ s.length ∧ s.length ≤ 64) &&
    s.toList.all fun c => c.isAlphanum || c == '.' || c == '_' || c == '-'

def orRaise {α : Type} : Option α → Except PackageError α
  | some a => .ok a
  | none => .error .raised

/-! ## The archive -/

/-- `_zip_info` -/
def zipInfo (path : String) : ZipInfo where
  origFilename := path
  filename := path
  dateTime := zipTimestamp
  externalAttr := zipMode

/-- `serialize_archive` -/
def serializeArchive (entries : List (String × Bytes)) : Except ZipError Bytes :=
  writeZip (entries.map fun e => (zipInfo e.1, e.2))

/-- `PurePosixPath(path).parts` of a relative path. -/
def posixParts (path : String) : List (List Char) :=
  (path.toList.splitOn '/').filter fun part => part != [] && part != ['.']

def posixPath (path : String) : List Char :=
  if posixParts path = [] then ['.'] else ['/'].intercalate (posixParts path)

/-- `_safe_archive_path` -/
def safeArchivePath (path : String) : Bool :=
  if path.toList = [] ∨ '\\' ∈ path.toList ∨ Char.ofNat 0 ∈ path.toList ∨
      path.toList.head? = some '/' then false
  else decide (posixPath path = path.toList) &&
    (posixParts path).all fun part => part != [] && part != ['.'] &&
      part != ['.', '.']

def isLink (mode : Nat) : Bool := decide (mode &&& 0o170000 = 0o120000)

def refuse (message : String) : PackageError := .verification message

def notReadable : ZipError → PackageError
  | .badZipFile => .verification "archive is not a readable ZIP"
  | .runtime => .verification "archive is not a readable ZIP"
  | _ => .raised

def ofZip {α : Type} : Except ZipError α → Except PackageError α
  | .ok a => .ok a
  | .error e => .error (notReadable e)

/-- The checks of one member, before its content is read. -/
def checkMember (info : ZipInfo) : Except PackageError Unit := do
  require (safeArchivePath info.filename = true ∧ info.isDir = false ∧
      isLink (info.externalAttr >>> 16) = false)
    (refuse "unsafe archive member path or type")
  require (bit info.flagBits 0 = false)
    (refuse "encrypted archive members are unsupported")
  require (info.compressType = 0)
    (refuse "compressed archive members are unsupported")
  require (info.dateTime = zipTimestamp ∧ info.createSystem = 3 ∧
      info.createVersion = 20 ∧ info.extractVersion = 20 ∧
      info.flagBits = 0 ∧ info.internalAttr = 0 ∧
      info.externalAttr = zipMode ∧ info.extra = [] ∧ info.comment = [])
    (refuse "archive metadata is not canonical")
  require (info.fileSize ≤ maxMemberBytes ∧ info.compressSize = info.fileSize)
    (refuse "archive member exceeds its bound")

/-- The loop of `read_archive`, from a total. -/
def readArchiveMembers (file : Bytes) (maxBytes : Nat) :
    Nat → List ZipInfo → Except PackageError (List (String × Bytes))
  | _, [] => .ok []
  | total, info :: infos => do
    checkMember info
    require (total + info.fileSize ≤ maxBytes)
      (refuse "archive content exceeds the size limit")
    let content ← ofZip (readMember file info)
    let rest ← readArchiveMembers file maxBytes (total + info.fileSize) infos
    .ok ((info.filename, content) :: rest)

/-- `read_archive` -/
def readArchive (maxBytes : Nat) (payload : Bytes) :
    Except PackageError (List (String × Bytes)) := do
  require (payload.length ≤ maxBytes) (refuse "archive exceeds the size limit")
  let archive ← ofZip (openZip payload)
  require (archive.comment = []) (refuse "archive comment is not allowed")
  require (archive.infolist.length = maxArchiveMembers)
    (refuse "archive member count is invalid")
  require (archive.infolist.map (·.filename) = archivePaths ∧
      (archive.infolist.map (·.filename)).Nodup)
    (refuse "archive paths or ordering are invalid")
  readArchiveMembers archive.file maxBytes 0 archive.infolist

/-- `members[path]` -/
def memberOf (members : List (String × Bytes)) (path : String) :
    Except PackageError Bytes :=
  orRaise (members.lookup path)

/-! ## The report -/

def contains (payload marker : Bytes) : Bool :=
  payload.tails.any fun rest => marker.isPrefixOf rest

def pdfMarkers : List String :=
  ["%PDF-1.7", "/StructTreeRoot", "/MarkInfo << /Marked true >>",
    "/Lang (en-US)", "/DisplayDocTitle true", "/Title (NodeLink Evidence Report)",
    "/H1", "/H2", "startxref", "%%EOF"]

/-- Digits with single underscores between them. -/
def readDigits : Bytes → Option (List Nat)
  | [] => none
  | [b] => if 48 ≤ b ∧ b ≤ 57 then some [b.toNat - 48] else none
  | b :: 95 :: rest =>
    if 48 ≤ b ∧ b ≤ 57 then (readDigits rest).map fun ds => (b.toNat - 48) :: ds
    else none
  | b :: rest =>
    if 48 ≤ b ∧ b ≤ 57 then (readDigits rest).map fun ds => (b.toNat - 48) :: ds
    else none

def ofDigits (digits : List Nat) : Option Nat :=
  if 4300 < digits.length then none
  else some (digits.foldl (fun n d => 10 * n + d) 0)

def asciiSpace (b : UInt8) : Bool := decide (b = 32 ∨ 9 ≤ b ∧ b ≤ 13)

/-- `int(text)` of bytes. -/
def intOfBytes (text : Bytes) : Option Int :=
  match trim asciiSpace text with
  | 43 :: digits => ((readDigits digits).bind ofDigits).map Int.ofNat
  | 45 :: digits => ((readDigits digits).bind ofDigits).map fun n => -(n : Int)
  | digits => ((readDigits digits).bind ofDigits).map Int.ofNat

def clamp (length : Nat) (i : Int) : Nat :=
  min (if i < 0 then i + length else i).toNat length

/-- `payload[i:j]` -/
def slice (payload : Bytes) (i j : Int) : Bytes :=
  (payload.take (clamp payload.length j)).drop (clamp payload.length i)

/-- The line after the last `startxref`, as a number. -/
def startxref (payload : Bytes) : Option Int :=
  match rfind (utf8 "startxref\n".toList) payload with
  | none => none
  | some i =>
    intOfBytes ((payload.drop (i + 10)).takeWhile fun b => b != 10 && b != 13)

/-- `expected_bundle_id.encode("ascii")`; there is none for `None`. -/
def expectedMarker : PyValue → Except PackageError (Option Bytes)
  | .null => .ok none
  | .str s =>
    if s.toList.all fun c => decide (c.toNat < 128) then
      .ok (some (utf8 s.toList))
    else .error .raised
  | _ => .error .raised

/-- `verify_pdf` -/
def verifyPdf (payload : Bytes) (expectedBundleId : PyValue) :
    Except PackageError Unit := do
  require (pdfMarkers.all fun marker =>
      contains payload (utf8 marker.toList))
    (refuse "PDF accessibility structure is incomplete")
  let expected ← expectedMarker expectedBundleId
  require (expected.all (contains payload))
    (refuse "PDF does not identify the evidence bundle")
  match startxref payload with
  | none => .error (refuse "PDF cross-reference pointer is malformed")
  | some i =>
    require (slice payload i (i + 4) = utf8 "xref".toList)
      (refuse "PDF cross-reference pointer is invalid")

/-! ## Verification -/

section Verify

variable {P : Type} (lib : PackageLibrary P)

/-- `_load_canonical_object`. Of the encodings `json.loads` guesses only UTF-8
can be canonical. -/
def loadCanonicalObject (payload : Bytes) (label : String) :
    Except PackageError Members :=
  match (readUtf8 payload).bind (PyValue.loads lib.floats) with
  | none => .error (refuse (label ++ " is not valid UTF-8 JSON"))
  | some (.obj ms) =>
    match PyValue.canonicalJson lib.floats (.obj ms) with
    | none => .error .raised
    | some canonical =>
      if canonical = payload then .ok ms
      else .error (refuse (label ++ " is not canonical JSON"))
  | some _ => .error (refuse (label ++ " is not canonical JSON"))

/-- `_load_ed25519_public_key` -/
def loadEd25519PublicKey (payload : Bytes) (label : String) :
    Except PackageError Ed25519PublicKey :=
  match lib.loadPublicKey payload with
  | .ed25519 key => .ok key
  | .other => .error (refuse (label ++ " is not Ed25519"))
  | .invalid => .error (refuse (label ++ " is not a valid public key"))
  | .raised => .error .raised

/-- `manifest["files"]`, when it is a list of dictionaries. -/
def manifestFiles (manifest : Members) : Option (List Members) :=
  match PyValue.get manifest "files" with
  | some (.arr items) => items.mapM fun v => dictOf (some v)
  | _ => none

def descriptorFields : List String := ["path", "media_type", "size_bytes", "sha256"]

/-- The checks of one file descriptor. -/
def checkDescriptor (file : Members) : Except PackageError Unit := do
  require (fieldsAre file descriptorFields)
    (refuse "package file descriptor is invalid")
  require ((strOf (PyValue.get file "path")).isSome ∧
      (intOf (PyValue.get file "size_bytes")).isSome ∧
      validSha256 (PyValue.get file "sha256"))
    (refuse "package file descriptor is invalid")
  require (strOf (PyValue.get file "media_type") =
      (strOf (PyValue.get file "path")).bind (mediaTypes.lookup ·))
    (refuse "package member media type is invalid")

def checkDescriptors : List Members → Except PackageError Unit
  | [] => .ok ()
  | file :: files => do
    checkDescriptor file
    checkDescriptors files

def signingFields : List String :=
  ["algorithm", "context", "key_id", "public_key_path", "public_key_sha256",
    "public_key_fingerprint_sha256"]

/-- `verify_package_manifest`, with the signing key's id. -/
def verifyPackageManifest (manifest : Members) :
    Except PackageError (String × String × Members) := do
  require (strOf (PyValue.get manifest "format") = some packageFormat ∧
      intOf (PyValue.get manifest "version") = some packageVersion)
    (refuse "unsupported evidence package format")
  require (fieldsAre manifest
      ["format", "version", "package_id", "evidence", "files", "signing"])
    (refuse "package manifest fields are invalid")
  require ((manifestFiles manifest).map (·.map fun file =>
      strOf (PyValue.get file "path")) = some (contentPaths.map some))
    (refuse "package file manifest is incomplete or unordered")
  checkDescriptors ((manifestFiles manifest).getD [])
  let base ← orRaise (PyValue.canonicalJson lib.floats
    (.obj (manifest.filter fun m => decide (m.1 ≠ "package_id"))))
  require (validSha256 (PyValue.get manifest "package_id") ∧
      strOf (PyValue.get manifest "package_id") = some (lib.sha256 base))
    (refuse "package ID does not match the manifest")
  match dictOf (PyValue.get manifest "signing") with
  | none => .error (refuse "package signing metadata is invalid")
  | some signing =>
    require (fieldsAre signing signingFields)
      (refuse "package signing metadata is invalid")
    require (strOf (PyValue.get signing "algorithm") = some "Ed25519" ∧
        strOf (PyValue.get signing "context") = some signingContextName ∧
        strOf (PyValue.get signing "public_key_path") = some publicKeyPath ∧
        (strOf (PyValue.get signing "key_id")).any validKeyId ∧
        validSha256 (PyValue.get signing "public_key_sha256") ∧
        validSha256 (PyValue.get signing "public_key_fingerprint_sha256"))
      (refuse "package signing algorithm or key is unsupported")
    .ok (lib.sha256 base, (strOf (PyValue.get signing "key_id")).getD "", signing)

/-- Each listed file against the member of its path. -/
def checkFiles (members : List (String × Bytes)) :
    List Members → Except PackageError Unit
  | [] => .ok ()
  | file :: files => do
    let path ← orRaise (strOf (PyValue.get file "path"))
    let content ← memberOf members path
    require (intOf (PyValue.get file "size_bytes") = some content.length ∧
        strOf (PyValue.get file "sha256") = some (lib.sha256 content))
      (refuse "package member digest or size mismatch")
    checkFiles members files

/-- The trust pin: is it the trusted key? -/
def checkTrusted (included : Ed25519PublicKey) :
    Option Bytes → Except PackageError Bool
  | none => .ok false
  | some pem => do
    let trusted ← loadEd25519PublicKey lib pem "trusted key"
    require (trusted.der = included.der)
      (refuse "included public key is not the trusted key")
    .ok true

def signatureFields : List String :=
  ["format", "version", "package_id", "manifest_sha256", "signed_payload_sha256",
    "signature"]

/-- The signature record, and the signature over the manifest. -/
def checkSignature (key : Ed25519PublicKey) (packageId : String)
    (signature : Members) (manifestJson : Bytes) : Except PackageError Unit := do
  require (fieldsAre signature signatureFields)
    (refuse "signature record fields are invalid")
  require (strOf (PyValue.get signature "format") = some packageFormat ∧
      intOf (PyValue.get signature "version") = some packageVersion ∧
      strOf (PyValue.get signature "package_id") = some packageId ∧
      validSha256 (PyValue.get signature "manifest_sha256") ∧
      validSha256 (PyValue.get signature "signed_payload_sha256") ∧
      (strOf (PyValue.get signature "signature")).isSome ∧
      strOf (PyValue.get signature "manifest_sha256") =
        some (lib.sha256 manifestJson) ∧
      strOf (PyValue.get signature "signed_payload_sha256") =
        some (lib.sha256 (signingContext ++ manifestJson)))
    (refuse "signature record does not bind the manifest")
  require (((strOf (PyValue.get signature "signature")).bind fun s =>
      decodeGroups s.toList).any fun bytes =>
        lib.verify key bytes (signingContext ++ manifestJson))
    (refuse "package signature is invalid")

/-- `d[k₁][k₂]…`, an exception when it is not there. -/
def itemAt (value : PyValue) : List String → Option PyValue
  | [] => some value
  | key :: keys => (item value key).bind fun v => itemAt v keys

/-- The evidence, the scope, the receipts and the report: they agree. -/
def checkEvidence (members : List (String × Bytes)) (manifest : Members) :
    Except PackageError PyValue := do
  let evidenceJson ← memberOf members evidencePath
  let evidence ← loadCanonicalObject lib evidenceJson "evidence document"
  match lib.verifyBundleDocument (.obj evidence) with
  | .error (.invalid text) =>
    .error (refuse ("embedded evidence is invalid: " ++ text))
  | .error .raised => .error .raised
  | .ok () =>
    let scope ← match dictOf (PyValue.get manifest "evidence") with
      | some scope => .ok scope
      | none =>
        .error (refuse "package scope does not match embedded evidence")
    let bundleId ← orRaise (itemAt (.obj evidence) ["manifest", "bundle_id"])
    let tenantId ← orRaise
      (itemAt (.obj evidence) ["manifest", "scope", "tenant_id"])
    let fromSeq ← orRaise
      (itemAt (.obj evidence) ["manifest", "scope", "from_seq"])
    let throughSeq ← orRaise
      (itemAt (.obj evidence) ["manifest", "scope", "through_seq"])
    require (PyValue.eq (.obj scope)
        (.obj [("bundle_id", bundleId), ("tenant_id", tenantId),
          ("from_seq", fromSeq), ("through_seq", throughSeq)]))
      (refuse "package scope does not match embedded evidence")
    let receiptsJson ← memberOf members receiptsPath
    let receipts ← loadCanonicalObject lib receiptsJson "receipt document"
    let anchors ← orRaise (itemAt (.obj evidence) ["records", "anchors"])
    require (PyValue.eq (.obj receipts)
        (.obj [("format", .str "nodelink-anchor-receipts"),
          ("version", .num (.int 1)), ("bundle_id", bundleId),
          ("anchors", anchors)]))
      (refuse "receipt document does not match embedded evidence")
    let report ← memberOf members reportPath
    verifyPdf report bundleId
    .ok bundleId

/-- `verify_signed_package` -/
def verifySignedPackage (payload : Bytes) (trustedPublicKeyPem : Option Bytes) :
    Except PackageError PackageVerification := do
  let members ← readArchive maxArchiveBytes payload
  let manifestJson ← memberOf members manifestPath
  let manifest ← loadCanonicalObject lib manifestJson "package manifest"
  let signatureJson ← memberOf members signaturePath
  let signature ← loadCanonicalObject lib signatureJson "signature record"
  let (packageId, keyId, signing) ← verifyPackageManifest lib manifest
  checkFiles lib members ((manifestFiles manifest).getD [])
  let includedPem ← memberOf members publicKeyPath
  let included ← loadEd25519PublicKey lib includedPem "included key"
  require (strOf (PyValue.get signing "public_key_sha256") =
        some (lib.sha256 includedPem) ∧
      strOf (PyValue.get signing "public_key_fingerprint_sha256") =
        some (lib.sha256 included.der))
    (refuse "included public key does not match the manifest")
  let trustedMatch ← checkTrusted lib included trustedPublicKeyPem
  checkSignature lib included packageId signature manifestJson
  let bundleId ← checkEvidence lib members manifest
  .ok ⟨packageId, bundleId, keyId, trustedMatch⟩

end Verify

/-! ## Building -/

section Build

variable {P : Type} (lib : PackageLibrary P)

def signingUnavailable : BuildError :=
  .evidencePackage "evidence_package_signing_unavailable" "unavailable" 503

def renderFailed : BuildError :=
  .evidencePackage "evidence_pdf_render_failed" "invalid" 500

def sizeExceeded : BuildError :=
  .evidencePackage "evidence_package_size_exceeded" "limit_exceeded" 413

def verificationFailed : BuildError :=
  .evidencePackage "evidence_package_verification_failed" "invalid" 500

/-- `text.replace("\r\n", "\n")` -/
def unixLines : List Char → List Char
  | '\r' :: '\n' :: rest => '\n' :: unixLines rest
  | c :: rest => c :: unixLines rest
  | [] => []

/-- `_normalized_public_key`; an exception is `none`. -/
def normalizedPublicKey (keyPem : String) : Option (Bytes × Ed25519PublicKey) :=
  if (trim pySpace (unixLines keyPem.toList)).all fun c =>
      decide (c.toNat < 128) then
    match lib.loadPublicKey
        (utf8 (trim pySpace (unixLines keyPem.toList) ++ ['\n'])) with
    | .ed25519 key =>
      some (utf8 (trim pySpace (unixLines keyPem.toList) ++ ['\n']), key)
    | _ => none
  else none

/-- The active key with its normalized public half, when the two match. -/
def signingMaterial (active : Option (SigningKey P)) :
    Except BuildError (SigningKey P × Bytes × Ed25519PublicKey) :=
  match active with
  | none => .error signingUnavailable
  | some key =>
    match normalizedPublicKey lib key.publicKeyPem with
    | none => .error signingUnavailable
    | some (pem, publicKey) =>
      if (lib.publicKey key.privateKey).der = publicKey.der then
        .ok (key, pem, publicKey)
      else .error signingUnavailable

/-- `build_pdf` -/
def buildPdf (artifact : BundleArtifact) : Except BuildError Bytes :=
  match lib.renderPdf artifact with
  | none => .error renderFailed
  | some payload =>
    if payload.length > maxPdfBytes then .error renderFailed
    else
      match verifyPdf payload (.str artifact.bundleId) with
      | .ok () => .ok payload
      | .error _ => .error renderFailed

def orRaiseBuild {α : Type} : Option α → Except BuildError α
  | some a => .ok a
  | none => .error .raised

/-- `_file_descriptor` -/
def fileDescriptor (path : String) (payload : Bytes) : PyValue :=
  .obj [("path", .str path),
    ("media_type", .str ((mediaTypes.lookup path).getD "")),
    ("size_bytes", .num (.int payload.length)),
    ("sha256", .str (lib.sha256 payload))]

/-- The manifest of these files, without its id. -/
def baseManifest (artifact : BundleArtifact) (tenantId fromSeq : PyValue)
    (keyId : String) (pem : Bytes) (publicKey : Ed25519PublicKey)
    (content : List (String × Bytes)) : Members :=
  [("format", .str packageFormat), ("version", .num (.int packageVersion)),
    ("evidence", .obj [("bundle_id", .str artifact.bundleId),
      ("tenant_id", tenantId), ("from_seq", fromSeq),
      ("through_seq", .num (.int artifact.throughSeq))]),
    ("files", .arr (content.map fun file => fileDescriptor lib file.1 file.2)),
    ("signing", .obj [("algorithm", .str "Ed25519"),
      ("context", .str signingContextName), ("key_id", .str keyId),
      ("public_key_path", .str publicKeyPath),
      ("public_key_sha256", .str (lib.sha256 pem)),
      ("public_key_fingerprint_sha256", .str (lib.sha256 publicKey.der))])]

/-- The signature record over a manifest. -/
def signatureRecord (key : SigningKey P) (packageId : String)
    (manifestJson : Bytes) : PyValue :=
  .obj [("format", .str packageFormat), ("version", .num (.int packageVersion)),
    ("package_id", .str packageId),
    ("manifest_sha256", .str (lib.sha256 manifestJson)),
    ("signed_payload_sha256",
      .str (lib.sha256 (signingContext ++ manifestJson))),
    ("signature", .str (encodeBase64
      (lib.sign key.privateKey (signingContext ++ manifestJson))))]

/-- The receipts document of an artifact. -/
def receiptsDocument (artifact : BundleArtifact) (anchors : PyValue) : PyValue :=
  .obj [("format", .str "nodelink-anchor-receipts"), ("version", .num (.int 1)),
    ("bundle_id", .str artifact.bundleId), ("anchors", anchors)]

/-- The content members, the manifest and its id. -/
def packageContent (artifact : BundleArtifact) (pem : Bytes) :
    Except BuildError (List (String × Bytes)) := do
  let evidenceJson ← orRaiseBuild
    (PyValue.canonicalJson lib.floats artifact.document)
  let reportPdf ← buildPdf lib artifact
  let anchors ← orRaiseBuild (itemAt artifact.document ["records", "anchors"])
  let receiptsJson ← orRaiseBuild
    (PyValue.canonicalJson lib.floats (receiptsDocument artifact anchors))
  .ok [(evidencePath, evidenceJson), (reportPath, reportPdf),
    (receiptsPath, receiptsJson), (publicKeyPath, pem),
    (instructionsPath, verifyText)]

/-- The members `build_signed_package` puts into the archive, with the id and
the manifest. -/
def packageEntries (key : SigningKey P) (pem : Bytes)
    (publicKey : Ed25519PublicKey) (artifact : BundleArtifact) :
    Except BuildError (List (String × Bytes) × String × PyValue) := do
  let content ← packageContent lib artifact pem
  let tenantId ← orRaiseBuild
    (itemAt artifact.document ["manifest", "scope", "tenant_id"])
  let fromSeq ← orRaiseBuild
    (itemAt artifact.document ["manifest", "scope", "from_seq"])
  let baseJson ← orRaiseBuild (PyValue.canonicalJson lib.floats
    (.obj (baseManifest lib artifact tenantId fromSeq key.keyId pem publicKey
      content)))
  let manifestJson ← orRaiseBuild (PyValue.canonicalJson lib.floats
    (.obj (baseManifest lib artifact tenantId fromSeq key.keyId pem publicKey
      content ++ [("package_id", .str (lib.sha256 baseJson))])))
  let signatureJson ← orRaiseBuild (PyValue.canonicalJson lib.floats
    (signatureRecord lib key (lib.sha256 baseJson) manifestJson))
  .ok ((manifestPath, manifestJson) :: (signaturePath, signatureJson) :: content,
    lib.sha256 baseJson,
    .obj (baseManifest lib artifact tenantId fromSeq key.keyId pem publicKey
      content ++ [("package_id", .str (lib.sha256 baseJson))]))

/-- `build_signed_package` -/
def buildSignedPackage (active : Option (SigningKey P))
    (artifact : BundleArtifact) (maxBytes : Nat) :
    Except BuildError PackageArtifact := do
  let (key, pem, publicKey) ← signingMaterial lib active
  let (entries, packageId, manifest) ←
    packageEntries lib key pem publicKey artifact
  require (∀ e ∈ entries, e.2.length ≤ maxMemberBytes) sizeExceeded
  match serializeArchive entries with
  | .error _ => .error .raised
  | .ok archive =>
    require (archive.length ≤ maxBytes) sizeExceeded
    match verifySignedPackage lib archive (some pem) with
    | .error (.verification _) => .error verificationFailed
    | .error .raised => .error .raised
    | .ok _ => .ok ⟨archive, packageId, key.keyId, manifest⟩

end Build

end NodeLink.Server.EvidencePackages
