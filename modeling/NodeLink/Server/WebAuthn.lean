import NodeLink.Lib.Base64
import NodeLink.Lib.Checks
import NodeLink.Lib.PyValue
import NodeLink.Lib.Trim
import NodeLink.Server.Cbor

/-!
# WebAuthn ceremonies

`core/webauthn.py`: what the bytes of a browser prove. Registration and
assertion check the client data, the data of the authenticator and a signature;
an assertion also checks the signature counter against the one that is stored.

The digest, `json.loads` and the `cryptography` package come in as `WebAuthnLib`.
-/

namespace NodeLink.Server.WebAuthn

open Lib

/-! ## Errors -/

/-- The codes of `WebAuthnError`. -/
inductive WebAuthnError where
  | malformedBase64url
  | clientDataTooLarge
  | malformedClientData
  | clientDataTypeMismatch
  | challengeMismatch
  | originMismatch
  | crossOriginNotAllowed
  | malformedAuthenticatorData
  | invalidCredentialId
  | malformedCredentialPublicKey
  | malformedExtensionData
  | rpIdMismatch
  | userPresenceRequired
  | userVerificationRequired
  | unsupportedAlgorithm
  | unsupportedCurve
  | unsupportedKeyType
  | invalidPublicKey
  | weakPublicKey
  | invalidSignature
  | malformedAttestationObject
  | attestedCredentialDataMissing
  | unexpectedAttestationStatement
  | unsupportedAttestationFormat
  | attestationAlgorithmMismatch
  | malformedAttestationStatement
  | unexpectedAttestedCredentialData
  | signCountRegressed
  | malformedSignature
  deriving DecidableEq, Repr

def WebAuthnError.code : WebAuthnError → String
  | .malformedBase64url => "malformed_base64url"
  | .clientDataTooLarge => "client_data_too_large"
  | .malformedClientData => "malformed_client_data"
  | .clientDataTypeMismatch => "client_data_type_mismatch"
  | .challengeMismatch => "challenge_mismatch"
  | .originMismatch => "origin_mismatch"
  | .crossOriginNotAllowed => "cross_origin_not_allowed"
  | .malformedAuthenticatorData => "malformed_authenticator_data"
  | .invalidCredentialId => "invalid_credential_id"
  | .malformedCredentialPublicKey => "malformed_credential_public_key"
  | .malformedExtensionData => "malformed_extension_data"
  | .rpIdMismatch => "rp_id_mismatch"
  | .userPresenceRequired => "user_presence_required"
  | .userVerificationRequired => "user_verification_required"
  | .unsupportedAlgorithm => "unsupported_algorithm"
  | .unsupportedCurve => "unsupported_curve"
  | .unsupportedKeyType => "unsupported_key_type"
  | .invalidPublicKey => "invalid_public_key"
  | .weakPublicKey => "weak_public_key"
  | .invalidSignature => "invalid_signature"
  | .malformedAttestationObject => "malformed_attestation_object"
  | .attestedCredentialDataMissing => "attested_credential_data_missing"
  | .unexpectedAttestationStatement => "unexpected_attestation_statement"
  | .unsupportedAttestationFormat => "unsupported_attestation_format"
  | .attestationAlgorithmMismatch => "attestation_algorithm_mismatch"
  | .malformedAttestationStatement => "malformed_attestation_statement"
  | .unexpectedAttestedCredentialData => "unexpected_attested_credential_data"
  | .signCountRegressed => "sign_count_regressed"
  | .malformedSignature => "malformed_signature"

/-- A `WebAuthnError`, or an exception nobody here expects. -/
inductive Fault where
  | refused (error : WebAuthnError)
  | raised
  deriving DecidableEq, Repr

/-- The value, or a refusal when there is none. -/
def orRefuse {α : Type} (value : Option α) (error : WebAuthnError) :
    Except Fault α :=
  match value with
  | some a => .ok a
  | none => .error (.refused error)

/-! ## What comes from elsewhere -/

/-- A public key of the `cryptography` package. -/
inductive PublicKey where
  | p256 (x y : Nat)
  | ed25519 (x : Bytes)
  | rsa (n e : Nat)
  deriving DecidableEq, Repr

/-- `JSONDecodeError`, or another exception of `json.loads`: a number of too many
digits, values nested too deep. -/
inductive JsonFault where
  | decode
  | other
  deriving DecidableEq, Repr

structure WebAuthnLib where
  sha256 : Bytes → Bytes
  loads : List Char → Except JsonFault PyValue
  /-- The package takes these numbers for a key. -/
  validKey : PublicKey → Bool
  /-- `public_key.verify(signature, signed, ...)` -/
  verify : PublicKey → Bytes → Bytes → Bool

/-! ## base64url -/

def urlLetter (c : Char) : Bool :=
  c.isAlphanum || c == '-' || c == '_'

/-- The letter of the standard alphabet. -/
def standardLetter (c : Char) : Char :=
  if c = '-' then '+' else if c = '_' then '/' else c

/-- `b64url_decode` -/
def b64urlDecode (value : String) : Option Bytes :=
  let stripped := (strip value).toList
  if stripped = [] ∨ stripped.length % 4 = 1 then none
  else if stripped.all urlLetter then
    decodeGroups (stripped.map standardLetter ++
      List.replicate ((4 - stripped.length % 4) % 4) '=')
  else none

/-- The letter of the URL alphabet. -/
def urlSafe (c : Char) : Char :=
  if c = '+' then '-' else if c = '/' then '_' else c

/-- `b64url_encode` -/
def b64urlEncode (raw : Bytes) : String :=
  String.ofList (((encodeGroups raw).filter fun c => c != '=').map urlSafe)

/-- `_decode_field` -/
def decodeField (value : String) (code : WebAuthnError) : Except Fault Bytes :=
  orRefuse (b64urlDecode value) code

variable (lib : WebAuthnLib)

/-! ## Client data -/

def maxClientDataBytes : Nat := 8 * 1024

def isText (text : String) : Option PyValue → Bool
  | some (.str s) => s == text
  | _ => false

def isTrue : Option PyValue → Bool
  | some (.bool b) => b
  | _ => false

/-- `_verify_client_data` -/
def verifyClientData (clientDataJson : Bytes) (expectedType : String)
    (expectedChallenge : Bytes) (expectedOrigins : List String) :
    Except Fault Unit := do
  require (clientDataJson.length ≤ maxClientDataBytes)
    (.refused .clientDataTooLarge)
  let text ← orRefuse (readUtf8 clientDataJson) .malformedClientData
  let clientData ← match lib.loads text with
    | .ok v => .ok v
    | .error .decode => .error (.refused .malformedClientData)
    | .error .other => .error .raised
  let members ← match clientData with
    | .obj ms => .ok ms
    | _ => .error (.refused .malformedClientData)
  require (isText expectedType (PyValue.get members "type") = true)
    (.refused .clientDataTypeMismatch)
  let challenge ← match PyValue.get members "challenge" with
    | some (.str s) => .ok s
    | _ => .error (.refused .malformedClientData)
  let challenge ← orRefuse (b64urlDecode challenge) .malformedBase64url
  require (challenge = expectedChallenge) (.refused .challengeMismatch)
  require ((expectedOrigins.any fun o =>
    isText o (PyValue.get members "origin")) = true) (.refused .originMismatch)
  require (isTrue (PyValue.get members "crossOrigin") = false)
    (.refused .crossOriginNotAllowed)

/-! ## The data of the authenticator -/

def authDataHeaderBytes : Nat := 37

def aaguidBytes : Nat := 16

def maxCredentialIdBytes : Nat := 1023

/-- `_AuthenticatorData` -/
structure AuthenticatorData where
  rpIdHash : Bytes
  flags : UInt8
  signCount : Nat
  aaguid : Option Bytes := none
  credentialId : Option Bytes := none
  credentialPublicKey : Option Bytes := none
  deriving DecidableEq, Repr

def AuthenticatorData.userPresent (d : AuthenticatorData) : Bool :=
  d.flags &&& 0x01 != 0

def AuthenticatorData.userVerified (d : AuthenticatorData) : Bool :=
  d.flags &&& 0x04 != 0

def AuthenticatorData.backupEligible (d : AuthenticatorData) : Bool :=
  d.flags &&& 0x08 != 0

def AuthenticatorData.backupState (d : AuthenticatorData) : Bool :=
  d.flags &&& 0x10 != 0

/-- The attested credential data at the front of `rest`. -/
def parseAttested (data : AuthenticatorData) (rest : Bytes) :
    Except Fault (AuthenticatorData × Bytes) := do
  require (aaguidBytes + 2 ≤ rest.length) (.refused .malformedAuthenticatorData)
  let idLength := Cbor.unpackBig ((rest.drop aaguidBytes).take 2)
  require (idLength ≠ 0 ∧ idLength ≤ maxCredentialIdBytes)
    (.refused .invalidCredentialId)
  let offset := aaguidBytes + 2
  require (offset + idLength ≤ rest.length)
    (.refused .malformedAuthenticatorData)
  let remainder := rest.drop (offset + idLength)
  let (_, consumed) ← orRefuse (Cbor.decodePrefix remainder)
    .malformedCredentialPublicKey
  return ({ data with
    aaguid := some (rest.take aaguidBytes)
    credentialId := some ((rest.drop offset).take idLength)
    credentialPublicKey := some (remainder.take consumed) },
    remainder.drop consumed)

/-- `_parse_authenticator_data` -/
def parseAuthenticatorData (raw : Bytes) : Except Fault AuthenticatorData := do
  require (authDataHeaderBytes ≤ raw.length)
    (.refused .malformedAuthenticatorData)
  let data : AuthenticatorData :=
    { rpIdHash := raw.take 32
      flags := raw.getD 32 0
      signCount := Cbor.unpackBig ((raw.drop 33).take 4) }
  let rest := raw.drop authDataHeaderBytes
  let (data, rest) ←
    if data.flags &&& 0x40 != 0 then parseAttested data rest
    else .ok (data, rest)
  let rest ←
    if data.flags &&& 0x80 != 0 then
      (orRefuse (Cbor.decodePrefix rest) .malformedExtensionData).map
        fun r => rest.drop r.2
    else .ok rest
  require (rest = []) (.refused .malformedAuthenticatorData)
  return data

/-- `_check_authenticator_data` -/
def checkAuthenticatorData (data : AuthenticatorData) (expectedRpId : String)
    (requireUserVerification : Bool) : Except Fault Unit := do
  require (data.rpIdHash = lib.sha256 (utf8 expectedRpId.toList))
    (.refused .rpIdMismatch)
  require (data.userPresent = true) (.refused .userPresenceRequired)
  require (requireUserVerification = true → data.userVerified = true)
    (.refused .userVerificationRequired)

/-! ## Public keys -/

/-- `SUPPORTED_ALGORITHMS` -/
def supportedAlgorithms : List Int := [-7, -8, -257]

/-- `_int_from_cose` -/
def intFromCose : Option Cbor.Value → Except Fault Nat
  | some (.bytes bs) =>
    if bs = [] then .error (.refused .malformedCredentialPublicKey)
    else .ok (Cbor.unpackBig bs)
  | _ => .error (.refused .malformedCredentialPublicKey)

/-- A coordinate: exactly 32 bytes. -/
def coordinate : Option Cbor.Value → Except Fault Bytes
  | some (.bytes bs) =>
    if bs.length = 32 then .ok bs
    else .error (.refused .malformedCredentialPublicKey)
  | _ => .error (.refused .malformedCredentialPublicKey)

/-- `_decode_cose_key` -/
def decodeCoseKey (publicKeyCose : Bytes) :
    Except Fault (List (Cbor.Key × Cbor.Value)) :=
  match Cbor.decode publicKeyCose with
  | some (.map members) => .ok members
  | _ => .error (.refused .malformedCredentialPublicKey)

/-- A parameter of a key that is compared with a number. -/
def numberAt (key : List (Cbor.Key × Cbor.Value)) (label : Int) : Option Int :=
  (Cbor.get key (.int label)).bind Cbor.Value.asInt

def accepted (key : PublicKey) : Except Fault PublicKey :=
  if lib.validKey key then .ok key else .error (.refused .invalidPublicKey)

/-- `cose_algorithm` -/
def coseAlgorithm (publicKeyCose : Bytes) : Except Fault Int := do
  let key ← decodeCoseKey publicKeyCose
  let algorithm ← orRefuse (numberAt key 3) .unsupportedAlgorithm
  require (algorithm ∈ supportedAlgorithms) (.refused .unsupportedAlgorithm)
  return algorithm

/-- `load_cose_key` -/
def loadCoseKey (publicKeyCose : Bytes) : Except Fault PublicKey := do
  let key ← decodeCoseKey publicKeyCose
  let algorithm ← coseAlgorithm publicKeyCose
  match numberAt key 1, algorithm with
  | some 2, -7 =>
    require (numberAt key (-1) = some 1) (.refused .unsupportedCurve)
    let x ← coordinate (Cbor.get key (.int (-2)))
    let y ← coordinate (Cbor.get key (.int (-3)))
    accepted lib (.p256 (Cbor.unpackBig x) (Cbor.unpackBig y))
  | some 1, -8 =>
    require (numberAt key (-1) = some 6) (.refused .unsupportedCurve)
    let x ← coordinate (Cbor.get key (.int (-2)))
    accepted lib (.ed25519 x)
  | some 3, -257 =>
    let modulus ← intFromCose (Cbor.get key (.int (-1)))
    let exponent ← intFromCose (Cbor.get key (.int (-2)))
    require (2 ^ 2047 ≤ modulus) (.refused .weakPublicKey)
    accepted lib (.rsa modulus exponent)
  | _, _ => .error (.refused .unsupportedKeyType)

/-- `_verify_signature` -/
def verifySignature (publicKey : PublicKey) (signature signed : Bytes) :
    Except Fault Unit :=
  require (lib.verify publicKey signature signed = true)
    (.refused .invalidSignature)

/-! ## Registration -/

structure RegistrationResult where
  credentialId : Bytes
  publicKeyCose : Bytes
  algorithm : Int
  signCount : Nat
  aaguid : Bytes
  userVerified : Bool
  backupEligible : Bool
  backupState : Bool
  attestationFormat : String
  deriving DecidableEq, Repr

/-- `_verify_attestation` -/
def verifyAttestation (fmt : List Char) (attStmt : List (Cbor.Key × Cbor.Value))
    (rawAuthData clientDataHash : Bytes) (publicKey : PublicKey)
    (algorithm : Int) : Except Fault Unit :=
  let field (name : String) := Cbor.get attStmt (.text name.toList)
  if fmt = "none".toList then
    require (attStmt.isEmpty = true) (.refused .unexpectedAttestationStatement)
  else if fmt = "packed".toList then do
    require ((field "x5c").isNone = true ∧ (field "ecdaaKeyId").isNone = true)
      (.refused .unsupportedAttestationFormat)
    require ((field "alg").bind Cbor.Value.asInt = some algorithm)
      (.refused .attestationAlgorithmMismatch)
    match field "sig" with
    | some (.bytes signature) =>
      verifySignature lib publicKey signature (rawAuthData ++ clientDataHash)
    | _ => .error (.refused .malformedAttestationStatement)
  else .error (.refused .unsupportedAttestationFormat)

/-- The three members of an attestation object. -/
def attestationParts (attestationObject : Bytes) :
    Except Fault (List Char × Bytes × List (Cbor.Key × Cbor.Value)) :=
  match Cbor.decode attestationObject with
  | some (.map attestation) =>
    let field (name : String) := Cbor.get attestation (.text name.toList)
    match field "fmt", field "authData", field "attStmt" with
    | some (.text fmt), some (.bytes rawAuthData), some (.map attStmt) =>
      .ok (fmt, rawAuthData, attStmt)
    | _, _, _ => .error (.refused .malformedAttestationObject)
  | _ => .error (.refused .malformedAttestationObject)

def verifyRegistration (clientDataJson attestationObject expectedChallenge : Bytes)
    (expectedOrigins : List String) (expectedRpId : String)
    (requireUserVerification : Bool) : Except Fault RegistrationResult := do
  verifyClientData lib clientDataJson "webauthn.create" expectedChallenge
    expectedOrigins
  let (fmt, rawAuthData, attStmt) ← attestationParts attestationObject
  let authData ← parseAuthenticatorData rawAuthData
  checkAuthenticatorData lib authData expectedRpId requireUserVerification
  let credentialId ← orRefuse authData.credentialId
    .attestedCredentialDataMissing
  let credentialPublicKey ← orRefuse authData.credentialPublicKey
    .attestedCredentialDataMissing
  let publicKey ← loadCoseKey lib credentialPublicKey
  let algorithm ← coseAlgorithm credentialPublicKey
  verifyAttestation lib fmt attStmt rawAuthData (lib.sha256 clientDataJson)
    publicKey algorithm
  return {
    credentialId
    publicKeyCose := credentialPublicKey
    algorithm
    signCount := authData.signCount
    aaguid := authData.aaguid.getD (List.replicate aaguidBytes 0)
    userVerified := authData.userVerified
    backupEligible := authData.backupEligible
    backupState := authData.backupState
    attestationFormat := String.ofList fmt }

/-! ## Assertion -/

structure AssertionResult where
  signCount : Nat
  userVerified : Bool
  backupState : Bool
  deriving DecidableEq, Repr

def verifyAssertion (clientDataJson authenticatorData signature
    expectedChallenge : Bytes) (expectedOrigins : List String)
    (expectedRpId : String) (credentialPublicKeyCose : Bytes)
    (storedSignCount : Nat) (requireUserVerification : Bool) :
    Except Fault AssertionResult := do
  verifyClientData lib clientDataJson "webauthn.get" expectedChallenge
    expectedOrigins
  let authData ← parseAuthenticatorData authenticatorData
  checkAuthenticatorData lib authData expectedRpId requireUserVerification
  require (authData.credentialId = none)
    (.refused .unexpectedAttestedCredentialData)
  let publicKey ← loadCoseKey lib credentialPublicKeyCose
  let _ ← coseAlgorithm credentialPublicKeyCose
  verifySignature lib publicKey signature
    (authenticatorData ++ lib.sha256 clientDataJson)
  -- A reported 0 is taken for an authenticator that does not count.
  require (¬ (authData.signCount ≠ 0 ∧ authData.signCount ≤ storedSignCount))
    (.refused .signCountRegressed)
  return {
    signCount := authData.signCount
    userVerified := authData.userVerified
    backupState := authData.backupState }

end NodeLink.Server.WebAuthn
