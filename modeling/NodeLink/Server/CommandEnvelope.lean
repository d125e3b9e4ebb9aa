import NodeLink.Lib.Checks
import NodeLink.Lib.CivilTime
import NodeLink.Lib.PyText

/-!
# The server's command envelope

`core/command_envelope.py`: the checks a command passes before it is
signed, in the order the server makes them, and the canonical bytes the
signature covers. Failures carry the stable code the server reports; a text
that cannot be encoded raises instead.

How `strftime("%Y")` writes the years before 1000 depends on the platform,
so whether it pads them is a parameter of the time checks.
-/

namespace NodeLink.Server

open Lib

/-- What `canonical_command_bytes` raises: a `CommandEnvelopeError` with its
code, or the encoder's own exception. -/
inductive EnvelopeFailure where
  | refused (code : String)
  | unicodeEncodeError
  deriving DecidableEq, Repr

abbrev EnvelopeResult := Except EnvelopeFailure

def commandEnvelopeV2 : PyStr := py "command-v2"

def commandEnvelopeV3 : PyStr := py "command-v3"

def commandSchemaVersion : Int := 1

def supportedCommandEnvelopeVersions : List PyStr :=
  [commandEnvelopeV3, commandEnvelopeV2]

/-- The names of `SUPPORTED_COMMAND_KINDS`. -/
def commandKinds : List String :=
  ["powershell", "shell", "collect_inventory", "scan_updates",
    "install_updates", "file_upload", "file_download", "registry_read",
    "registry_write", "registry_delete", "remediation_rollback", "reboot",
    "shutdown", "cancel_power_action", "query_event_log", "scan_packages",
    "install_packages", "deploy_software", "list_services",
    "control_service", "list_processes", "terminate_process",
    "agent_self_update", "agent_update_rollback"]

def supportedCommandKinds : List PyStr := commandKinds.map py

def maxCommandEnvelopeBytes : Nat := 64 * 1024

def maxCommandPayloadBytes : Nat := 60 * 1024

def maxCommandPayloadDepth : Nat := 16

def maxCommandLifetimeSeconds : Int := 86400

def minSignedInteger : Int := -(2 ^ 63)

def maxSignedInteger : Int := 2 ^ 63 - 1

/-- `[A-Za-z0-9_-]` -/
def isNonceChar (n : Nat) : Bool :=
  (65 ≤ n && n ≤ 90) || (97 ≤ n && n ≤ 122) || (48 ≤ n && n ≤ 57)
    || n == 95 || n == 45

/-- `[A-Za-z0-9._-]` -/
def isKeyIdChar (n : Nat) : Bool := isNonceChar n || n == 46

/-- `^[A-Za-z0-9_-]{22,64}$`, the whole text. -/
def matchesNonce (codes : List Nat) : Bool :=
  codes.all isNonceChar && 22 ≤ codes.length && codes.length ≤ 64

/-- `[A-Za-z0-9._-]{1,64}`, the whole text. -/
def matchesKeyId (codes : List Nat) : Bool :=
  codes.all isKeyIdChar && 1 ≤ codes.length && codes.length ≤ 64

/-! ## Times -/

section Times

variable (padYear : Bool)

/-- `strftime("%Y")`. -/
def strftimeYear (y : Nat) : List Nat :=
  if padYear then padDigits 4 y else (Nat.toDigits 10 y).map Char.toNat

def formatCommandTime (value : Stamp) : List Nat :=
  strftimeYear padYear value.year ++ stampTail { value with
    micro := if value.micro.getD 0 = 0 then none else value.micro }

/-- `\d` also takes the decimal digits of other scripts, which
`fromisoformat` then refuses; both failures are `malformed_time`. -/
def parseCommandTime (field : String) (raw : PyStr) : EnvelopeResult Stamp :=
  if raw = [] then .error (.refused ("missing_" ++ field))
  else
    match matchTime (raw.map Fin.val) with
    | none => .error (.refused "malformed_time")
    | some parsed => do
      require (1 ≤ parsed.year ∧ parsed.validDate = true)
        (.refused "malformed_time")
      require (formatCommandTime padYear parsed = raw.map Fin.val)
        (.refused "malformed_time")
      .ok parsed

def validateCommandWindow (issuedAt expiresAt : PyStr) :
    EnvelopeResult (Stamp × Stamp) := do
  let issued ← parseCommandTime padYear "issued_at" issuedAt
  let expires ← parseCommandTime padYear "expires_at" expiresAt
  require (issued.micros < expires.micros) (.refused "invalid_time_window")
  require (expires.micros - issued.micros
      ≤ maxCommandLifetimeSeconds * 1000000)
    (.refused "invalid_time_window")
  .ok (issued, expires)

end Times

/-! ## Payloads -/

mutual

/-- `_validate_payload_value` -/
def validatePayloadValue : PyJson → Nat → EnvelopeResult Unit
  | v, depth => do
    require (depth ≤ maxCommandPayloadDepth) (.refused "payload_too_deep")
    match v with
    | .null => .ok ()
    | .str _ => .ok ()
    | .bool _ => .ok ()
    | .num (.int value) =>
      require (minSignedInteger ≤ value ∧ value ≤ maxSignedInteger)
        (.refused "integer_out_of_range")
    | .num (.float _) => .error (.refused "floating_point_not_supported")
    | .arr items => validatePayloadItems items depth
    | .obj members => validatePayloadMembers members depth

def validatePayloadItems : List PyJson → Nat → EnvelopeResult Unit
  | [], _ => .ok ()
  | item :: items, depth => do
    validatePayloadValue item (depth + 1)
    validatePayloadItems items depth

def validatePayloadMembers : List (PyStr × PyJson) → Nat → EnvelopeResult Unit
  | [], _ => .ok ()
  | (_, item) :: members, depth => do
    validatePayloadValue item (depth + 1)
    validatePayloadMembers members depth

end

/-- A payload as the server holds it: no dictionary has a key twice. -/
abbrev Payload := { v : PyJson // v.DistinctKeys }

def encodeOrRaise (s : PyStr) : EnvelopeResult Bytes :=
  match encodeUtf8 s with
  | some encoded => .ok encoded
  | none => .error .unicodeEncodeError

def isDict : PyJson → Bool
  | .obj _ => true
  | _ => false

def validateCommandPayload (payload : Payload) : EnvelopeResult Unit := do
  require (isDict payload.val = true) (.refused "malformed_envelope")
  validatePayloadValue payload.val 0
  let encoded ← encodeOrRaise (dumps true payload.val)
  require (encoded.length ≤ maxCommandPayloadBytes)
    (.refused "payload_too_large")

/-! ## The envelope -/

/-- The arguments of `canonical_command_bytes`. The schema version is any
value a caller may pass, `null` for `None`. -/
structure Envelope where
  envelopeVersion : PyStr
  schemaVersion : PyJson
  commandId : PyStr
  agentId : PyStr
  kind : PyStr
  payload : Payload
  issuedAt : PyStr
  expiresAt : PyStr
  nonce : PyStr
  signingKeyId : Option PyStr

def checkSchemaVersion : PyJson → EnvelopeResult Unit
  | .null => .error (.refused "missing_schema_version")
  | .num (.int value) =>
    require (value = commandSchemaVersion) (.refused "unsupported_schema_version")
  | _ => .error (.refused "unsupported_schema_version")

def checkSigningKeyId (envelopeVersion : PyStr) (signingKeyId : Option PyStr) :
    EnvelopeResult Unit :=
  if envelopeVersion = commandEnvelopeV3 then do
    require (signingKeyId.getD [] ≠ []) (.refused "missing_signing_key_id")
    require (matchesKeyId ((signingKeyId.getD []).map Fin.val) = true)
      (.refused "malformed_signing_key_id")
  else require (signingKeyId = none) (.refused "unexpected_signing_key_id")

/-- The signed document. -/
def signedDocument (e : Envelope) : PyJson :=
  .obj ([(py "agent_id", .str e.agentId), (py "command_id", .str e.commandId),
    (py "envelope_version", .str e.envelopeVersion),
    (py "expires_at", .str e.expiresAt), (py "issued_at", .str e.issuedAt),
    (py "kind", .str e.kind), (py "nonce", .str e.nonce),
    (py "payload", e.payload.val), (py "schema_version", e.schemaVersion)]
    ++ if e.envelopeVersion = commandEnvelopeV3 then
      [(py "signing_key_id", .str (e.signingKeyId.getD []))] else [])

/-- `.replace("\u2028", "\\u2028").replace("\u2029", "\\u2029")` -/
def escapeSeparators (s : PyStr) : PyStr :=
  s.flatMap fun c =>
    if c.val = 0x2028 ∨ c.val = 0x2029 then
      unicodeEscape (fun d => [ofChar d]) c.val
    else [c]

def canonicalCommandBytes (padYear : Bool) (e : Envelope) :
    EnvelopeResult Bytes := do
  require (e.envelopeVersion ∈ supportedCommandEnvelopeVersions)
    (.refused (if e.envelopeVersion = [] then "missing_version"
      else "unsupported_version"))
  checkSchemaVersion e.schemaVersion
  require (e.commandId ≠ [] ∧ e.agentId ≠ [] ∧ e.kind ≠ [])
    (.refused "malformed_envelope")
  require (e.kind ∈ supportedCommandKinds) (.refused "unsupported_kind")
  require (e.nonce ≠ []) (.refused "missing_nonce")
  require (matchesNonce (e.nonce.map Fin.val) = true)
    (.refused "malformed_nonce")
  let _ ← validateCommandWindow padYear e.issuedAt e.expiresAt
  checkSigningKeyId e.envelopeVersion e.signingKeyId
  validateCommandPayload e.payload
  let encoded ← encodeOrRaise (escapeSeparators (dumps true (signedDocument e)))
  require (encoded.length ≤ maxCommandEnvelopeBytes)
    (.refused "envelope_too_large")
  .ok encoded

end NodeLink.Server
