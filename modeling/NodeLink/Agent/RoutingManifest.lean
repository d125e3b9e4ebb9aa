import NodeLink.Agent.Verify
import NodeLink.Lib.GoUrl

/-!
# The agent's check of a routing manifest

`internal/verify/manifest.go`: what a manifest must be for the agent to adopt
it. Its bytes are decoded into a struct that knows every field: a field is
found by its name under case folding, a field that comes twice takes its last
value, and an unknown field fails. Times are seconds since the epoch.
-/

namespace NodeLink.Agent.Manifests

open Lib

def routingManifestVersion : String := "routing-manifest-v1"

def routingManifestContext : Bytes :=
  utf8 "nodelink-agent-routing-v1:".toList

def maxManifestBytes : Nat := 64 * 1024

def maxManifestRoutes : Nat := 16

/-- 24 hours, in nanoseconds. -/
def maxManifestLifetime : Int := 24 * 3600 * 1000000000

def maxManifestSignatures : Nat := 16

def maxIssuedAtClockSkewSeconds : Int := 120

/-- `^[a-z0-9-]{0,32}$` -/
def regionPattern (s : String) : Bool :=
  s.length ≤ 32 &&
    s.toList.all fun c => ('a' ≤ c && c ≤ 'z') || c.isDigit || c == '-'

/-- `^[0-9a-f-]{36}$` -/
def relayIDPattern (s : String) : Bool :=
  s.length == 36 &&
    s.toList.all fun c => c.isDigit || ('a' ≤ c && c ≤ 'f') || c == '-'

structure ManifestSignature where
  keyID : String
  signature : String
  deriving DecidableEq, Repr

structure SignedRoutingManifest where
  manifestB64 : String
  signatures : List ManifestSignature
  deriving DecidableEq, Repr

structure ManifestRoute where
  kind : String := ""
  relayID : String := ""
  region : String := ""
  baseURL : String := ""
  tlsSPKIPins : List String := []
  deriving DecidableEq, Repr

structure RoutingManifest where
  manifestVersion : String := ""
  agentID : String := ""
  issuedAt : Int := 0
  expiresAt : Int := 0
  residencyMode : String := ""
  homeRegion : String := ""
  routes : List ManifestRoute := []
  commandPublicKeys : List (String × String) := []
  deriving DecidableEq, Repr

/-! ## Decoding -/

/-- A letter under the folding that finds a field: the Kelvin sign and the
long s fold to ASCII letters too. -/
def foldRune (c : Char) : Char :=
  if 'A' ≤ c ∧ c ≤ 'Z' then Char.ofNat (c.toNat + 32)
  else if c.toNat = 0x212A then 'k'
  else if c.toNat = 0x17F then 's'
  else c

def foldName (s : String) : String := String.ofList (s.toList.map foldRune)

def decodeString (old : String) : Json String String → Option String
  | .str s => some s
  | .null => some old
  | _ => none

def decodeInt64 (old : Int) : Json String String → Option Int
  | .num n => parseInt64 n
  | .null => some old
  | _ => none

def decodeSlice {α : Type} (item : Json String String → Option α) :
    Json String String → Option (List α)
  | .arr items => items.mapM item
  | .null => some []
  | _ => none

/-- A `map[string]string`. -/
def decodeMap : Json String String → Option (List (String × String))
  | .obj members =>
    (members.mapM fun m => (decodeString "" m.2).map (m.1, ·)).map lastMembers
  | .null => some []
  | _ => none

def setRouteField (r : ManifestRoute) (m : String × Json String String) :
    Option ManifestRoute :=
  if foldName m.1 = "kind" then
    (decodeString r.kind m.2).map fun x => { r with kind := x }
  else if foldName m.1 = "relay_id" then
    (decodeString r.relayID m.2).map fun x => { r with relayID := x }
  else if foldName m.1 = "region" then
    (decodeString r.region m.2).map fun x => { r with region := x }
  else if foldName m.1 = "base_url" then
    (decodeString r.baseURL m.2).map fun x => { r with baseURL := x }
  else if foldName m.1 = "tls_spki_pins" then
    (decodeSlice (decodeString "") m.2).map fun x => { r with tlsSPKIPins := x }
  else none

def decodeRoute : Json String String → Option ManifestRoute
  | .obj members => members.foldlM setRouteField {}
  | .null => some {}
  | _ => none

def setManifestField (r : RoutingManifest) (m : String × Json String String) :
    Option RoutingManifest :=
  if foldName m.1 = "manifest_version" then
    (decodeString r.manifestVersion m.2).map fun x =>
      { r with manifestVersion := x }
  else if foldName m.1 = "agent_id" then
    (decodeString r.agentID m.2).map fun x => { r with agentID := x }
  else if foldName m.1 = "issued_at" then
    (decodeInt64 r.issuedAt m.2).map fun x => { r with issuedAt := x }
  else if foldName m.1 = "expires_at" then
    (decodeInt64 r.expiresAt m.2).map fun x => { r with expiresAt := x }
  else if foldName m.1 = "residency_mode" then
    (decodeString r.residencyMode m.2).map fun x =>
      { r with residencyMode := x }
  else if foldName m.1 = "home_region" then
    (decodeString r.homeRegion m.2).map fun x => { r with homeRegion := x }
  else if foldName m.1 = "routes" then
    (decodeSlice decodeRoute m.2).map fun x => { r with routes := x }
  else if foldName m.1 = "command_public_keys" then
    (decodeMap m.2).map fun x => { r with commandPublicKeys := x }
  else none

def decodeManifest : Json String String → Option RoutingManifest
  | .obj members => members.foldlM setManifestField {}
  | .null => some {}
  | _ => none

/-! ## Checks -/

/-- A refusal's code. -/
abbrev ManifestResult := Except String

/-- The URL of a relay route. -/
def validBaseURL (raw : String) : Bool :=
  match parseUrl raw with
  | none => false
  | some parsed =>
    parsed.scheme == "https" && parsed.host != [] && !parsed.hasUser &&
      parsed.rawQuery == [] && parsed.fragment == [] &&
        parsed.path.all (· == '/')

def validateRoute (route : ManifestRoute) : ManifestResult Unit := do
  if route.kind = "origin" then
    require (route.relayID = "" ∧ route.baseURL = "" ∧ route.tlsSPKIPins = [])
      "route_invalid"
  else do
    require (route.kind = "relay") "route_invalid"
    require (relayIDPattern route.relayID = true ∧
      regionPattern route.region = true) "route_invalid"
    require (validBaseURL route.baseURL = true) "route_invalid"
    require (route.tlsSPKIPins.length ≤ 4) "route_invalid"

def validateRoutes : List ManifestRoute → ManifestResult Unit
  | [] => .ok ()
  | route :: routes => do
    validateRoute route
    validateRoutes routes

/-- A 64-bit integer, wrapped around. -/
def wrap64 (i : Int) : Int := (i + 2 ^ 63) % 2 ^ 64 - 2 ^ 63

section Verify

variable {Key : Type} (ed25519Verify : Key → Bytes → Bytes → Bool)
  (publicKeyFromPEM : String → Option Key)

/-- A signature by a key the agent trusts. -/
def trustedSignature (trusted : String → Option Key) (legacy : Option Key)
    (message : Bytes) (item : ManifestSignature) : Bool :=
  keyIDPattern item.keyID &&
    match decodeBase64 item.signature with
    | none => false
    | some sig =>
      sig.length == 64 &&
        ((trusted item.keyID).any (ed25519Verify · message sig) ||
          legacy.any (ed25519Verify · message sig))

def validateKeys : List (String × String) → ManifestResult Unit
  | [] => .ok ()
  | (keyID, pemKey) :: keys => do
    require (keyIDPattern keyID = true) "keys_invalid"
    require ((publicKeyFromPEM pemKey).isSome = true) "keys_invalid"
    validateKeys keys

/-- The checks on a decoded manifest. -/
def validateManifest (agentID : String) (lastIssuedAt now : Int)
    (manifest : RoutingManifest) : ManifestResult Unit := do
  require (manifest.manifestVersion = routingManifestVersion)
    "unsupported_version"
  require (manifest.agentID = agentID) "wrong_agent"
  require (manifest.issuedAt < manifest.expiresAt ∧
    wrap64 (wrap64 (manifest.expiresAt - manifest.issuedAt) * 1000000000) ≤
      maxManifestLifetime) "lifetime_invalid"
  require (manifest.issuedAt ≤ wrap64 (now + maxIssuedAtClockSkewSeconds))
    "issued_in_future"
  require (now < manifest.expiresAt) "expired"
  require (lastIssuedAt ≤ manifest.issuedAt) "rollback"
  require (manifest.residencyMode ∈ ["none", "preferred", "strict"])
    "residency_mode_invalid"
  require (regionPattern manifest.homeRegion = true) "region_invalid"
  require (manifest.routes ≠ [] ∧ manifest.routes.length ≤ maxManifestRoutes)
    "routes_invalid"
  validateRoutes manifest.routes
  require (manifest.commandPublicKeys ≠ []) "keys_missing"
  validateKeys publicKeyFromPEM manifest.commandPublicKeys

/-- `VerifyRoutingManifest` -/
def verifyRoutingManifest (signed : SignedRoutingManifest)
    (trusted : String → Option Key) (legacy : Option Key) (agentID : String)
    (lastIssuedAt now : Int) : ManifestResult RoutingManifest := do
  let raw ← match decodeBase64 signed.manifestB64 with
    | none => .error "malformed"
    | some raw => .ok raw
  require (raw ≠ []) "malformed"
  require (raw.length ≤ maxManifestBytes) "too_large"
  require (signed.signatures ≠ [] ∧
    signed.signatures.length ≤ maxManifestSignatures) "signature_missing"
  require (signed.signatures.any (trustedSignature ed25519Verify trusted legacy
    (routingManifestContext ++ raw)) = true) "signature_untrusted"
  let manifest ← match (readJson (decodeUtf8 raw)).bind fun r =>
      decodeManifest r.1 with
    | none => .error "malformed"
    | some manifest => .ok manifest
  validateManifest publicKeyFromPEM agentID lastIssuedAt now manifest
  .ok manifest

end Verify

end NodeLink.Agent.Manifests
