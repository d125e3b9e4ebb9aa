import NodeLink.Lib.Base64
import NodeLink.Lib.Checks
import NodeLink.Lib.CivilTime
import NodeLink.Lib.JsonText

/-!
# The agent's check of a signed command

`internal/verify/verify.go` and `canonical.go`: the checks on an envelope
in the order the agent makes them, the canonical bytes, and the signature
and clock checks on top. The payload arrives as the raw JSON bytes of the
wire and is decoded and encoded again.
-/

namespace NodeLink.Agent

open Lib

/-- Why an envelope is refused. -/
inductive VerifyError where
  | missingVersion
  | unsupportedVersion (version : String)
  | missingSchemaVersion
  | unsupportedSchemaVersion (version : Int)
  | missingIdentity
  | unsupportedKind (kind : String)
  | missingNonce
  | malformedNonce
  | badSigningKeyID
  | unexpectedSigningKeyID
  | missingTime (field : String)
  | malformedTime (field : String)
  | invalidTime (field : String)
  | expiresNotLater
  | lifetimeTooLong
  | decodePayload
  | payloadNotObject
  | payloadTooDeep
  | payloadFloat
  | payloadInteger
  | envelopeTooLarge
  | decodeSignature
  | signatureFailed
  | issuedInFuture
  | expired
  deriving DecidableEq, Repr

abbrev VerifyResult := Except VerifyError

def commandEnvelopeV2 : String := "command-v2"

def commandEnvelopeV3 : String := "command-v3"

def commandSchemaV1 : Int := 1

def maxCommandEnvelopeBytes : Nat := 64 * 1024

def maxCommandPayloadDepth : Nat := 16

/-- One second of the agent's clock: times are integers, nanoseconds since
the start of year 0. -/
def second : Int := 1000000000

def maxCommandLifetime : Int := 24 * 3600 * second

def maxIssuedAtClockSkew : Int := 2 * 60 * second

/-- `[A-Za-z0-9_-]` -/
def isNonceRune (n : Nat) : Bool :=
  (65 ≤ n && n ≤ 90) || (97 ≤ n && n ≤ 122) || (48 ≤ n && n ≤ 57)
    || n == 95 || n == 45

/-- `^[A-Za-z0-9_-]{22,64}$` -/
def noncePattern (nonce : String) : Bool :=
  let runes := nonce.toList.map Char.toNat
  runes.all isNonceRune && 22 ≤ runes.length && runes.length ≤ 64

/-- `^[A-Za-z0-9._-]{1,64}$` -/
def keyIDPattern (keyID : String) : Bool :=
  let runes := keyID.toList.map Char.toNat
  runes.all (fun n => isNonceRune n || n == 46) && 1 ≤ runes.length
    && runes.length ≤ 64

/-- The cases of the switch on the command kind. -/
def commandKinds : List String :=
  ["powershell", "shell", "collect_inventory", "scan_updates",
    "install_updates", "file_upload", "file_download", "registry_read",
    "registry_write", "registry_delete", "remediation_rollback", "reboot",
    "shutdown", "cancel_power_action", "query_event_log", "scan_packages",
    "install_packages", "deploy_software", "list_services",
    "control_service", "list_processes", "terminate_process",
    "agent_self_update", "agent_update_rollback"]

/-! ## Times -/

def formatCommandTime (value : Stamp) : List Nat :=
  padDigits 4 value.year ++ stampTail { value with
    micro := if value.micro.getD 0 = 0 then none else value.micro }

def Stamp.instant (st : Stamp) : Int := st.micros * 1000

def parseCommandTime (field raw : String) : VerifyResult Stamp :=
  if raw = "" then .error (.missingTime field)
  else
    match matchTime (raw.toList.map Char.toNat) with
    | none => .error (.malformedTime field)
    | some parsed => do
      require (parsed.validDate = true
        ∧ formatCommandTime parsed = raw.toList.map Char.toNat)
        (.invalidTime field)
      .ok parsed

def validateCommandTimePair (issuedRaw expiresRaw : String) :
    VerifyResult (Int × Int) := do
  let issued ← parseCommandTime "issued_at" issuedRaw
  let expires ← parseCommandTime "expires_at" expiresRaw
  require (Stamp.instant issued < Stamp.instant expires) .expiresNotLater
  require (Stamp.instant expires - Stamp.instant issued ≤ maxCommandLifetime)
    .lifetimeTooLong
  .ok (Stamp.instant issued, Stamp.instant expires)

/-- The signed clock policy at receipt: expiry is exclusive, and `issued_at`
may lie a little ahead of the endpoint's clock. -/
def validateCommandWindow (issuedRaw expiresRaw : String) (now : Int) :
    VerifyResult Int := do
  let (issued, expires) ← validateCommandTimePair issuedRaw expiresRaw
  require (issued ≤ now + maxIssuedAtClockSkew) .issuedInFuture
  require (now < expires) .expired
  .ok expires

/-! ## Payloads -/

/-- A map keeps the last of several members with one key. -/
def lastMembers {β : Type} : List (String × β) → List (String × β)
  | [] => []
  | m :: ms =>
    if ms.any (fun n => n.1 == m.1) then lastMembers ms
    else m :: lastMembers ms

/-- A decoded value as `any` holds it: objects are maps. -/
def asAny : Json String String → Json String String :=
  Json.fold .null .bool .num .str .arr (fun ms => .obj (lastMembers ms))

/-- A value and nothing after it: `Decode` followed by `ensureJSONEOF`. -/
def decodePayload (payload : Bytes) : VerifyResult (Json String String) :=
  if payload = [] then .ok (.obj [])
  else
    match readJson (decodeUtf8 payload) with
    | some (v, rest) =>
      if skipSpace rest = [] then .ok (asAny v) else .error .decodePayload
    | none => .error .decodePayload

/-- `strconv.ParseInt(s, 10, 64)` on a number literal. -/
def parseInt64 (s : String) : Option Int :=
  let digits := if s.toList.head? = some '-' then s.toList.tail else s.toList
  if digits = [] ∨ digits.all Char.isDigit = false then none
  else
    let n : Int := Nat.ofDigitChars 10 digits 0
    let v := if s.toList.head? = some '-' then -n else n
    if -(2 ^ 63) ≤ v ∧ v < 2 ^ 63 then some v else none

def isFloatRune (c : Char) : Bool := c == '.' || c == 'e' || c == 'E'

mutual

def validatePayloadValue : Json String String → Nat → VerifyResult Unit
  | v, depth => do
    require (depth ≤ maxCommandPayloadDepth) .payloadTooDeep
    match v with
    | .null => .ok ()
    | .str _ => .ok ()
    | .bool _ => .ok ()
    | .num n => do
      require (n.toList.any isFloatRune = false) .payloadFloat
      require ((parseInt64 n).isSome = true) .payloadInteger
    | .arr items => validatePayloadItems items depth
    | .obj members => validatePayloadMembers members depth

def validatePayloadItems : List (Json String String) → Nat → VerifyResult Unit
  | [], _ => .ok ()
  | item :: items, depth => do
    validatePayloadValue item (depth + 1)
    validatePayloadItems items depth

def validatePayloadMembers :
    List (String × Json String String) → Nat → VerifyResult Unit
  | [], _ => .ok ()
  | (_, item) :: members, depth => do
    validatePayloadValue item (depth + 1)
    validatePayloadMembers members depth

end

/-! ## Canonical bytes -/

/-- A letter of a string under `SetEscapeHTML(false)`: the line and
paragraph separators are escaped all the same. -/
def appendString : Char → List Char :=
  escapeUnit lit1 Char.toNat fun n => n == 0x2028 || n == 0x2029

/-- Map keys are sorted as byte strings. -/
def keyLe (s t : String) : Prop :=
  lexLe UInt8.toNat (utf8 s.toList) (utf8 t.toList) = true

instance : DecidableRel keyLe := fun s t =>
  inferInstanceAs (Decidable (lexLe UInt8.toNat (utf8 s.toList)
    (utf8 t.toList) = true))

/-- The text `marshalCanonical` encodes, before UTF-8. -/
def canonicalText (v : Json String String) : List Char :=
  (v.sortKeys keyLe).render lit1 (fun s => s.toList.flatMap appendString)
    String.toList

def marshalCanonical (v : Json String String) : Bytes := utf8 (canonicalText v)

/-- The signed fields of a command as the agent receives them;
`signingKeyIDs` is the variadic argument. -/
structure Envelope where
  envelopeVersion : String
  schemaVersion : Int
  commandID : String
  agentID : String
  kind : String
  payload : Bytes
  issuedAt : String
  expiresAt : String
  nonce : String
  signingKeyIDs : List String
  deriving DecidableEq

/-- The first of the variadic key ids, or none. -/
def Envelope.signingKeyID (e : Envelope) : String :=
  e.signingKeyIDs.head?.getD ""

/-- `any` other than `map[string]any`. -/
def isObject : Json String String → Bool
  | .obj _ => true
  | _ => false

def signedDocument (e : Envelope) (payloadVal : Json String String) :
    Json String String :=
  .obj ([("agent_id", .str e.agentID), ("command_id", .str e.commandID),
    ("envelope_version", .str e.envelopeVersion),
    ("expires_at", .str e.expiresAt), ("issued_at", .str e.issuedAt),
    ("kind", .str e.kind), ("nonce", .str e.nonce), ("payload", payloadVal),
    ("schema_version", .num (String.ofList (intDigits e.schemaVersion)))]
    ++ if e.envelopeVersion = commandEnvelopeV3 then
      [("signing_key_id", .str e.signingKeyID)] else [])

def checkSigningKeyID (e : Envelope) : VerifyResult Unit :=
  if e.envelopeVersion = commandEnvelopeV3 then
    require (keyIDPattern e.signingKeyID = true) .badSigningKeyID
  else require (e.signingKeyID = "") .unexpectedSigningKeyID

def canonicalCommandBytes (e : Envelope) : VerifyResult Bytes := do
  require (e.envelopeVersion = commandEnvelopeV2
      ∨ e.envelopeVersion = commandEnvelopeV3)
    (if e.envelopeVersion = "" then .missingVersion
      else .unsupportedVersion e.envelopeVersion)
  require (e.schemaVersion ≠ 0) .missingSchemaVersion
  require (e.schemaVersion = commandSchemaV1)
    (.unsupportedSchemaVersion e.schemaVersion)
  require (e.commandID ≠ "" ∧ e.agentID ≠ "" ∧ e.kind ≠ "") .missingIdentity
  require (e.kind ∈ commandKinds) (.unsupportedKind e.kind)
  require (e.nonce ≠ "") .missingNonce
  require (noncePattern e.nonce = true) .malformedNonce
  checkSigningKeyID e
  let _ ← validateCommandTimePair e.issuedAt e.expiresAt
  let payloadVal ← decodePayload e.payload
  require (isObject payloadVal = true) .payloadNotObject
  validatePayloadValue payloadVal 0
  let encoded := marshalCanonical (signedDocument e payloadVal)
  require (encoded.length ≤ maxCommandEnvelopeBytes) .envelopeTooLarge
  .ok encoded

/-! ## Signatures -/

section Signature

variable {Key : Type} (ed25519Verify : Key → Bytes → Bytes → Bool)

/-- `Verify` and `VerifyWithKeyID`: they differ in the envelope's variadic
key id only. -/
def verify (pub : Key) (e : Envelope) (signatureB64 : String) :
    VerifyResult Unit := do
  let msg ← canonicalCommandBytes e
  match decodeBase64 signatureB64 with
  | none => .error .decodeSignature
  | some sig => require (ed25519Verify pub msg sig = true) .signatureFailed

/-- A signature that verifies covers the canonical bytes. -/
theorem verify_ok {pub : Key} {e : Envelope} {signatureB64 : String}
    (h : verify ed25519Verify pub e signatureB64 = .ok ()) :
    ∃ msg sig, canonicalCommandBytes e = .ok msg ∧
      decodeBase64 signatureB64 = some sig ∧ ed25519Verify pub msg sig = true := by
  rw [verify, bind_eq_ok] at h
  obtain ⟨msg, hmsg, h⟩ := h
  split at h
  · cases h
  · next sig hsig => exact ⟨msg, sig, hmsg, hsig, require_eq_ok.mp h⟩

end Signature

end NodeLink.Agent
