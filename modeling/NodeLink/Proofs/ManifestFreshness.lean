import NodeLink.Agent.RoutingManifest
import NodeLink.Lib.Base64
import NodeLink.Lib.JsonRoundTrip

/-!
# How long an accepted routing manifest lasts

The lifetime is taken in seconds, turned into nanoseconds and compared with the
maximum, in 64 bits. From a lifetime of 2^63 nanoseconds on the product wraps
around and may pass for a short one. The other bounds hold of every manifest
that is accepted.
-/

namespace NodeLink.Proofs.ManifestFreshness

open Lib Agent Agent.Manifests

/-- The times of a manifest are as they are to be, in integers. -/
structure Fresh (lastIssuedAt now : Int) (m : RoutingManifest) : Prop where
  floor : lastIssuedAt ≤ m.issuedAt
  skew : m.issuedAt ≤ now + maxIssuedAtClockSkewSeconds
  unexpired : now < m.expiresAt
  positive : 0 < m.expiresAt - m.issuedAt
  lifetime : (m.expiresAt - m.issuedAt) * 1000000000 ≤ maxManifestLifetime

theorem wrap64_of_lt {i : Int} (h : -(2 ^ 63) ≤ i) (h' : i < 2 ^ 63) :
    wrap64 i = i := by
  unfold wrap64
  omega

theorem wrap64_le {i : Int} (h : -(2 ^ 63) ≤ i) : wrap64 i ≤ i := by
  unfold wrap64
  omega

/-- The check of a lifetime in nanoseconds is one of the lifetime, unless the
product wraps around. -/
theorem lifetime_iff {d : Int} (hd : 0 < d)
    (h : wrap64 (wrap64 d * 1000000000) ≤ maxManifestLifetime) :
    d * 1000000000 ≤ maxManifestLifetime ↔ d * 1000000000 < 2 ^ 63 := by
  have hmax : maxManifestLifetime = 86400000000000 := by decide
  constructor
  · intro hle
    omega
  · intro hlt
    have hself : wrap64 d = d := wrap64_of_lt (by omega) (by omega)
    rw [hself, wrap64_of_lt (by omega) hlt] at h
    exact h

section Verify

variable {Key : Type} {ed25519Verify : Key → Bytes → Bytes → Bool}
  {publicKeyFromPEM : String → Option Key}

/-- The checks of the times, as a manifest that was accepted has passed them. -/
theorem validateManifest_times {agentID : String} {lastIssuedAt now : Int}
    {m : RoutingManifest}
    (h : validateManifest publicKeyFromPEM agentID lastIssuedAt now m = .ok ()) :
    (m.issuedAt < m.expiresAt ∧
      wrap64 (wrap64 (m.expiresAt - m.issuedAt) * 1000000000) ≤
        maxManifestLifetime) ∧
    m.issuedAt ≤ wrap64 (now + maxIssuedAtClockSkewSeconds) ∧
    now < m.expiresAt ∧ lastIssuedAt ≤ m.issuedAt := by
  unfold validateManifest at h
  obtain ⟨_, h⟩ := require_bind_eq_ok.mp h
  obtain ⟨_, h⟩ := require_bind_eq_ok.mp h
  obtain ⟨hlifetime, h⟩ := require_bind_eq_ok.mp h
  obtain ⟨hskew, h⟩ := require_bind_eq_ok.mp h
  obtain ⟨hexpired, h⟩ := require_bind_eq_ok.mp h
  obtain ⟨hfloor, _⟩ := require_bind_eq_ok.mp h
  exact ⟨hlifetime, hskew, hexpired, hfloor⟩

theorem verifyRoutingManifest_validates {signed : SignedRoutingManifest}
    {trusted : String → Option Key} {legacy : Option Key} {agentID : String}
    {lastIssuedAt now : Int} {m : RoutingManifest}
    (h : verifyRoutingManifest ed25519Verify publicKeyFromPEM signed trusted legacy
      agentID lastIssuedAt now = .ok m) :
    validateManifest publicKeyFromPEM agentID lastIssuedAt now m = .ok () := by
  unfold verifyRoutingManifest at h
  cases hraw : decodeBase64 signed.manifestB64 with
  | none =>
      rw [hraw] at h
      cases h
  | some raw =>
      rw [hraw] at h
      obtain ⟨_, h⟩ := require_bind_eq_ok.mp h
      obtain ⟨_, h⟩ := require_bind_eq_ok.mp h
      obtain ⟨_, h⟩ := require_bind_eq_ok.mp h
      obtain ⟨_, h⟩ := require_bind_eq_ok.mp h
      cases hread : (readJson (decodeUtf8 raw)).bind fun r => decodeManifest r.1 with
      | none =>
          rw [hread] at h
          cases h
      | some manifest =>
          rw [hread] at h
          obtain ⟨hvalid, h⟩ := unit_bind_eq_ok.mp h
          cases h
          exact hvalid

/-- What passes every check is accepted. -/
theorem verifyRoutingManifest_eq_ok {signed : SignedRoutingManifest}
    {trusted : String → Option Key} {legacy : Option Key} {agentID : String}
    {lastIssuedAt now : Int} {m : RoutingManifest} {raw : Bytes}
    (hraw : decodeBase64 signed.manifestB64 = some raw) (hne : raw ≠ [])
    (hlength : raw.length ≤ maxManifestBytes)
    (hsignatures : signed.signatures ≠ [] ∧
      signed.signatures.length ≤ maxManifestSignatures)
    (htrusted : signed.signatures.any (trustedSignature ed25519Verify trusted legacy
      (routingManifestContext ++ raw)) = true)
    (hread : (readJson (decodeUtf8 raw)).bind (fun r => decodeManifest r.1) = some m)
    (hvalid : validateManifest publicKeyFromPEM agentID lastIssuedAt now m = .ok ()) :
    verifyRoutingManifest ed25519Verify publicKeyFromPEM signed trusted legacy
      agentID lastIssuedAt now = .ok m := by
  unfold verifyRoutingManifest
  rw [hraw]
  refine require_bind_eq_ok.mpr ⟨hne, ?_⟩
  refine require_bind_eq_ok.mpr ⟨hlength, ?_⟩
  refine require_bind_eq_ok.mpr ⟨hsignatures, ?_⟩
  refine require_bind_eq_ok.mpr ⟨htrusted, ?_⟩
  rw [hread]
  exact unit_bind_eq_ok.mpr ⟨hvalid, rfl⟩

/-- An accepted manifest is fresh exactly when its lifetime in nanoseconds fits
in 64 bits. -/
theorem accepted_fresh_iff (signed : SignedRoutingManifest)
    (trusted : String → Option Key) (legacy : Option Key) (agentID : String)
    (lastIssuedAt : Int) (now : Int64) :
    (∀ m, verifyRoutingManifest ed25519Verify publicKeyFromPEM signed trusted legacy
        agentID lastIssuedAt now.toInt = .ok m → Fresh lastIssuedAt now.toInt m) ↔
      ∀ m, verifyRoutingManifest ed25519Verify publicKeyFromPEM signed trusted legacy
        agentID lastIssuedAt now.toInt = .ok m →
          (m.expiresAt - m.issuedAt) * 1000000000 < 2 ^ 63 := by
  refine forall_congr' fun m => imp_congr_right fun hok => ?_
  obtain ⟨⟨hpositive, hlifetime⟩, hskew, hexpired, hfloor⟩ :=
    validateManifest_times (verifyRoutingManifest_validates hok)
  have hiff := lifetime_iff (by omega) hlifetime
  refine ⟨fun hfresh => hiff.mp hfresh.lifetime, fun hfits => ?_⟩
  have hnow := Int64.le_toInt now
  have hskew' : m.issuedAt ≤ now.toInt + maxIssuedAtClockSkewSeconds :=
    Int.le_trans hskew (wrap64_le (by
      rw [maxIssuedAtClockSkewSeconds]
      omega))
  exact ⟨hfloor, hskew', hexpired, by omega, hiff.mpr hfits⟩

end Verify

/-! ## A manifest for 292 years -/

def longManifest : RoutingManifest where
  manifestVersion := "routing-manifest-v1"
  expiresAt := 9223372037
  residencyMode := "none"
  routes := [{ kind := "origin" }]
  commandPublicKeys := [("k", "")]

def longDocument : Json String String :=
  .obj [("manifest_version", .str "routing-manifest-v1"),
    ("expires_at", .num "9223372037"), ("residency_mode", .str "none"),
    ("routes", .arr [.obj [("kind", .str "origin")]]),
    ("command_public_keys", .obj [("k", .str "")])]

def longText : Bytes :=
  utf8 (jsonText (escapeUnit lit1 Char.toNat fun _ => false) longDocument)

def longSigned : SignedRoutingManifest where
  manifestB64 := encodeBase64 longText
  signatures := [⟨"k", encodeBase64 (List.replicate 64 0)⟩]

theorem longDocument_numerals : Numerals longDocument := by
  have hnumeral : Numeral ['9', '2', '2', '3', '3', '7', '2', '0', '3', '7'] :=
    numeral_intDigits 9223372037
  simp [Numerals, longDocument, hnumeral]

theorem longText_read :
    (readJson (decodeUtf8 longText)).bind (fun r => decodeManifest r.1) =
      some longManifest := by
  have hesc : Readable (escapeUnit lit1 Char.toNat fun _ => false) :=
    readable_escapeUnit fun _ h => by cases h
  have hread := readJson_jsonText hesc longDocument_numerals (by decide)
  rw [longText, decodeUtf8_utf8, hread]
  decide

theorem longText_ne_nil : longText ≠ [] := by
  rw [longText, longDocument, jsonText_obj, utf8_cons]
  exact List.append_ne_nil_of_left_ne_nil (utf8EncodeChar_ne_nil _) _

theorem longText_length : longText.length ≤ maxManifestBytes := by decide +kernel

theorem longSigned_decoded : decodeBase64 longSigned.manifestB64 = some longText := by
  rw [longSigned, decodeBase64_encodeBase64]

theorem longSigned_signatures : longSigned.signatures ≠ [] ∧
    longSigned.signatures.length ≤ maxManifestSignatures :=
  ⟨List.cons_ne_nil _ _, by decide⟩

theorem longSigned_trusted (message : Bytes) :
    longSigned.signatures.any (trustedSignature (fun _ _ _ => true)
      (fun _ => some ()) none message) = true := by
  have hkey : keyIDPattern "k" = true := by decide
  rw [longSigned, List.any_cons, List.any_nil, Bool.or_false, trustedSignature, hkey,
    decodeBase64_encodeBase64]
  rfl

theorem longManifest_valid :
    validateManifest (fun _ => some ()) "" 0 0 longManifest = .ok () := by rfl

/-- A manifest that expires after 292 years is accepted. -/
theorem accepted_not_fresh :
    verifyRoutingManifest (fun _ _ _ => true) (fun _ => some ()) longSigned
        (fun _ => some ()) none "" 0 0 = .ok longManifest ∧
      ¬ Fresh 0 0 longManifest :=
  ⟨verifyRoutingManifest_eq_ok longSigned_decoded longText_ne_nil longText_length
    longSigned_signatures (longSigned_trusted _) longText_read longManifest_valid,
   fun h => absurd h.lifetime (by decide)⟩

end NodeLink.Proofs.ManifestFreshness
