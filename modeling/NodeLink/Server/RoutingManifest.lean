import NodeLink.Lib.Base64
import NodeLink.Lib.PyText
import NodeLink.Server.Relays

/-!
# Routing manifests

`core/relays.py` and `core/keyring.py`: which routes an agent is offered, the
manifest that lists them and the signing keys, and its signatures. Rows carry
what the administration API checks before it writes them. How the database
orders texts is a parameter, and so are the signature scheme and the texts of
public keys.
-/

namespace NodeLink.Server.RoutingManifest

open Lib

/-! ## Settings and rows -/

/-- The relay settings together with the two that shape a manifest. -/
structure RoutingSettings extends RelaySettings where
  relayRouteManifestTtlSeconds : Int := 3600
  relayMaxRoutes : Nat := 8
  ttlBounds : 300 ≤ relayRouteManifestTtlSeconds ∧
    relayRouteManifestTtlSeconds ≤ 86400 := by decide
  routeBounds : 1 ≤ relayMaxRoutes ∧ relayMaxRoutes ≤ 16 := by decide

/-- `^[a-z0-9-]{2,32}$` -/
def regionCodeRe (s : String) : Bool :=
  2 ≤ s.length && s.length ≤ 32 &&
    s.toList.all fun c => ('a' ≤ c && c ≤ 'z') || c.isDigit || c == '-'

structure ManifestRegion extends RelayRegion where
  codeOk : regionCodeRe code = true

structure ManifestRelay extends Relay where
  name : String
  baseUrl : String
  tlsSpkiPins : List String := []
  idOk : uuidRe id = true
  pinsOk : tlsSpkiPins.length ≤ 4

inductive ResidencyMode where
  | preferred
  | strict
  deriving DecidableEq, Repr

def ResidencyMode.text : ResidencyMode → String
  | .preferred => "preferred"
  | .strict => "strict"

structure TenantRegionPolicy where
  clientId : String
  regionId : String
  mode : ResidencyMode

structure RoutingTables where
  regions : List ManifestRegion := []
  relays : List ManifestRelay := []
  policies : List TenantRegionPolicy := []

structure RoutingAgent where
  id : String
  supportedCapabilities : List String

/-- `agent_supports_relay_routing` -/
def RoutingAgent.supportsRelayRouting (agent : RoutingAgent) : Bool :=
  agent.supportedCapabilities.contains "relay-routing"

/-! ## The keyring -/

inductive SigningKeyStatus where
  | active
  | overlap
  | retired
  deriving DecidableEq, Repr

/-- `SigningKey`, with what its two paths hold. -/
structure SigningKey (PrivateKey : Type) where
  keyId : String
  privateKey : Option PrivateKey
  publicFile : Option String := none
  status : SigningKeyStatus := .active

/-- What `load_keyring` returns. -/
structure Keyring (PrivateKey : Type) where
  keys : List (SigningKey PrivateKey)
  distinct : (keys.map (·.keyId)).Nodup
  named : ∀ key ∈ keys, keyIdRe key.keyId = true
  material : ∀ key ∈ keys, key.privateKey.isSome ∨ key.publicFile.isSome
  active : ∃ key ∈ keys, key.status = .active

/-- A key that is not retired. -/
def SigningKey.live {PrivateKey : Type} (key : SigningKey PrivateKey) : Bool :=
  key.status == .active || key.status == .overlap

section Manifest

variable {PrivateKey : Type} (publicBytes : PrivateKey → String)
  (sign : PrivateKey → Bytes → Bytes) (collate : String → String → Bool)

/-- `public_key_pem` -/
def SigningKey.publicKeyPem (key : SigningKey PrivateKey) : String :=
  (key.publicFile <|> key.privateKey.map publicBytes).getD ""

/-- `public_key_bundle` -/
def publicKeyBundle (ring : Keyring PrivateKey) : List (String × String) :=
  (ring.keys.filter (·.live)).map fun key =>
    (key.keyId, key.publicKeyPem publicBytes)

/-! ## Routes -/

/-- `tenant_policy` -/
def tenantPolicy (t : RoutingTables) (clientId : Option String) :
    Option TenantRegionPolicy :=
  clientId.bind fun id => t.policies.find? (·.clientId == id)

/-- `order_by(RelayRegion.code, Relay.name, Relay.id)` -/
def routeBefore (a b : ManifestRelay × ManifestRegion) : Bool :=
  if a.2.code ≠ b.2.code then collate a.2.code b.2.code
  else if a.1.name ≠ b.1.name then collate a.1.name b.1.name
  else collate a.1.id b.1.id

/-- Every active relay of an active region. -/
def eligibleRelays (t : RoutingTables) :
    List (ManifestRelay × ManifestRegion) :=
  (t.relays.flatMap fun relay =>
    (t.regions.filter fun region => region.id == relay.regionId &&
      relay.status == .active && region.status == .active).map fun region =>
        (relay, region)).insertionSort fun a b => routeBefore collate a b

/-- `order_routes` -/
def orderRoutes (mode : Option ResidencyMode) (homeRegionId : Option String)
    (relays : List (ManifestRelay × ManifestRegion)) (maxRoutes : Nat) :
    List (ManifestRelay × ManifestRegion) :=
  match mode, homeRegionId with
  | some mode, some homeRegionId =>
    let home := relays.filter fun pair => pair.1.regionId == homeRegionId
    match mode with
    | .strict => home.take maxRoutes
    | .preferred =>
      let others := relays.filter fun pair => pair.1.regionId != homeRegionId
      (home ++ others).take maxRoutes
  | _, _ => relays.take maxRoutes

/-- The relays an agent of a tenant is offered. -/
def chosenRelays (settings : RoutingSettings) (t : RoutingTables)
    (clientId : Option String) : List (ManifestRelay × ManifestRegion) :=
  let policy := tenantPolicy t clientId
  orderRoutes (policy.map (·.mode)) (policy.map (·.regionId))
    (eligibleRelays collate t) settings.relayMaxRoutes

/-! ## The manifest -/

def manifestVersion : String := "routing-manifest-v1"

def text (s : String) : PyJson := .str (py s)

def relayRoute (pair : ManifestRelay × ManifestRegion) : PyJson :=
  .obj [(py "kind", text "relay"), (py "relay_id", text pair.1.id),
    (py "region", text pair.2.code), (py "base_url", text pair.1.baseUrl),
    (py "tls_spki_pins", .arr (pair.1.tlsSpkiPins.map text))]

def originRoute : PyJson := .obj [(py "kind", text "origin")]

/-- The routes of a manifest, the origin last unless the mode is strict. -/
def manifestRoutes (mode : Option ResidencyMode)
    (chosen : List (ManifestRelay × ManifestRegion)) : List PyJson :=
  chosen.map relayRoute ++
    if mode = some .strict then [] else [originRoute]

def homeCode (t : RoutingTables) (policy : Option TenantRegionPolicy) :
    String :=
  match policy with
  | none => ""
  | some policy =>
    ((t.regions.find? (·.id == policy.regionId)).map (·.code)).getD ""

/-- `int(now.timestamp())` -/
def issuedAt (now : Int) : Int := now.tdiv 1000000

/-- `build_routing_manifest` -/
def buildRoutingManifest (settings : RoutingSettings) (t : RoutingTables)
    (ring : Keyring PrivateKey) (agent : RoutingAgent)
    (clientId : Option String) (now : Int) : PyJson :=
  let policy := tenantPolicy t clientId
  let mode := policy.map (·.mode)
  let issued := issuedAt now
  .obj [
    (py "manifest_version", text manifestVersion),
    (py "agent_id", text agent.id),
    (py "issued_at", .num (.int issued)),
    (py "expires_at",
      .num (.int (issued + settings.relayRouteManifestTtlSeconds))),
    (py "residency_mode", text ((mode.map (·.text)).getD "none")),
    (py "home_region", text (homeCode t policy)),
    (py "routes", .arr (manifestRoutes mode
      (chosenRelays collate settings t clientId))),
    (py "command_public_keys", .obj ((publicKeyBundle publicBytes ring).map
      fun entry => (py entry.1, text entry.2)))]

/-- `encode_manifest` -/
def encodeManifest (manifest : PyJson) : Option Bytes :=
  encodeUtf8 (dumps true manifest)

/-! ## Signatures -/

structure ManifestSignature where
  keyId : String
  signature : String
  deriving DecidableEq, Repr

structure SignedManifest where
  manifestB64 : String
  signatures : List ManifestSignature
  deriving DecidableEq, Repr

/-- `MANIFEST_CONTEXT` -/
def manifestContext : Bytes := utf8 "nodelink-agent-routing-v1:".toList

/-- The keys that sign, by id. -/
def signingKeys (ring : Keyring PrivateKey) : List (String × PrivateKey) :=
  (ring.keys.insertionSort fun a b => pyLe (py a.keyId) (py b.keyId)).filterMap
    fun key =>
      if key.live then key.privateKey.map fun p => (key.keyId, p) else none

/-- `sign_manifest_bytes`, before it refuses to sign with no key. -/
def signManifestBytes (ring : Keyring PrivateKey) (manifestBytes : Bytes) :
    List ManifestSignature :=
  (signingKeys ring).map fun entry => {
    keyId := entry.1
    signature := encodeBase64 (sign entry.2 (manifestContext ++ manifestBytes)) }

inductive ManifestFailure where
  | unicodeEncodeError
  | noSigningKey
  deriving DecidableEq, Repr

/-- `signed_routing_manifest` -/
def signedRoutingManifest (settings : RoutingSettings) (t : RoutingTables)
    (ring : Keyring PrivateKey) (agent : RoutingAgent)
    (clientId : Option String) (now : Int) :
    Except ManifestFailure (Option SignedManifest) :=
  if !settings.relayRoutingEnabled || !agent.supportsRelayRouting then .ok none
  else
    match encodeManifest (buildRoutingManifest publicBytes collate settings t
      ring agent clientId now) with
    | none => .error .unicodeEncodeError
    | some manifestBytes =>
      match signManifestBytes sign ring manifestBytes with
      | [] => .error .noSigningKey
      | signature :: signatures => .ok (some {
          manifestB64 := encodeBase64 manifestBytes
          signatures := signature :: signatures })

end Manifest

end NodeLink.Server.RoutingManifest
