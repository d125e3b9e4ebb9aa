import NodeLink.Lib.JsonUnique
import NodeLink.Proofs.CanonicalAgreement
import NodeLink.Proofs.SignedFields

/-!
# Signed bytes determine the command

The canonical bytes are the UTF-8 of a sorted compact text, and such a text
is the text of one value only. So two accepted envelopes with the same bytes
have the same signed document, and the document holds every field: whether
it has a key id is told by its version, and the order of a dictionary's keys
is all of the payload that sorting forgets.
-/

namespace NodeLink.Proofs

open Lib Server

/-- Equal as Python values: the order of a dictionary's keys is no part of
it. -/
def SamePayload (v w : PyJson) : Prop := v.sortKeys pyLe = w.sortKeys pyLe

/-- Two envelopes agree in every field. -/
structure SameEnvelope (e e' : Server.Envelope) : Prop where
  envelopeVersion : e.envelopeVersion = e'.envelopeVersion
  schemaVersion : e.schemaVersion = e'.schemaVersion
  commandId : e.commandId = e'.commandId
  agentId : e.agentId = e'.agentId
  kind : e.kind = e'.kind
  payload : SamePayload e.payload.val e'.payload.val
  issuedAt : e.issuedAt = e'.issuedAt
  expiresAt : e.expiresAt = e'.expiresAt
  nonce : e.nonce = e'.nonce
  signingKeyId : e.signingKeyId = e'.signingKeyId

theorem numberText_injOn {m n : PyNum} (hm : IsInt m) (hn : IsInt n)
    (h : numberText m = numberText n) : m = n := by
  cases m with
  | float r => exact hm.elim
  | int i =>
      cases n with
      | float r => exact hn.elim
      | int j =>
          rw [numberText, numberText] at h
          rw [intDigits_injective (String.ofList_injective h)]

/-- The canonical text of a value determines the value, up to key order. -/
theorem samePayload_of_canonicalText {v w : PyJson} (hv : v.All Scalar IsInt)
    (hw : w.All Scalar IsInt)
    (h : Agent.canonicalText (onTheWire v) = Agent.canonicalText (onTheWire w)) :
    SamePayload v w := by
  have hsorted : ∀ {u : PyJson}, u.All Scalar IsInt →
      (onTheWire u).sortKeys Agent.keyLe = onTheWire (u.sortKeys pyLe) :=
    fun hu => Json.sortKeys_map pyLe (fun s t hs ht => pyLe_iff hs ht) hu
  have hwire : onTheWire (v.sortKeys pyLe) = onTheWire (w.sortKeys pyLe) := by
    refine eq_of_jsonText_eq readable_appendString
      (numerals_onTheWire (hv.sortKeys pyLe))
      (numerals_onTheWire (hw.sortKeys pyLe)) ?_
    rw [← hsorted hv, ← hsorted hw]
    exact h
  exact map_injOn (fun s t hs ht => textOf_injective hs ht)
    (fun m n hm hn => numberText_injOn hm hn) (hv.sortKeys pyLe)
    (hw.sortKeys pyLe) hwire

/-! ## The members of a signed document -/

/-- The members under the names of the source, in key order. -/
def signedMembers (e : Server.Envelope) (payload : PyJson) :
    List (PyStr × PyJson) :=
  [(py "agent_id", .str e.agentId), (py "command_id", .str e.commandId),
    (py "envelope_version", .str e.envelopeVersion),
    (py "expires_at", .str e.expiresAt), (py "issued_at", .str e.issuedAt),
    (py "kind", .str e.kind), (py "nonce", .str e.nonce),
    (py "payload", payload), (py "schema_version", e.schemaVersion)]
    ++ if e.envelopeVersion = commandEnvelopeV3 then
      [(py "signing_key_id", .str (e.signingKeyId.getD []))] else []

/-- Their names under version 3. -/
def signedNames : List PyStr :=
  [py "agent_id", py "command_id", py "envelope_version", py "expires_at",
    py "issued_at", py "kind", py "nonce", py "payload", py "schema_version",
    py "signing_key_id"]

theorem sortKeys_signedDocument {e : Server.Envelope}
    (hschema : e.schemaVersion = .num (.int 1)) :
    (signedDocument e).sortKeys pyLe =
      .obj (signedMembers e (e.payload.val.sortKeys pyLe)) := by
  have hmap : (signedMembers e e.payload.val).map
      (Prod.map id (Json.sortKeys pyLe)) =
        signedMembers e (e.payload.val.sortKeys pyLe) := by
    unfold signedMembers
    rw [hschema]
    split <;> rfl
  have hkeys : ((signedMembers e (e.payload.val.sortKeys pyLe)).map
      Prod.fst).Pairwise pyLe := by
    unfold signedMembers
    split
    · exact (by decide +kernel : signedNames.Pairwise pyLe)
    · exact (by decide +kernel : signedNames.dropLast.Pairwise pyLe)
  show Json.sortKeys pyLe (.obj (signedMembers e e.payload.val)) = _
  rw [Json.sortKeys_obj, hmap, Json.sortMembers]
  exact congrArg Json.obj
    (List.Pairwise.insertionSort_eq (List.pairwise_map.mp hkeys))

/-- A key id that passes is there under version 3 only, and not empty. -/
theorem signingKeyId_of_ok {v : PyStr} {keyId : Option PyStr}
    (h : checkSigningKeyId v keyId = .ok ()) :
    (v = commandEnvelopeV3 ∧ ∃ k, keyId = some k) ∨
      (v ≠ commandEnvelopeV3 ∧ keyId = none) := by
  unfold checkSigningKeyId at h
  split at h
  · next hv =>
      rw [require_bind_eq_ok] at h
      cases keyId with
      | none => exact absurd rfl h.1
      | some k => exact Or.inl ⟨hv, k, rfl⟩
  · next hv => exact Or.inr ⟨hv, require_eq_ok.mp h⟩

theorem sameEnvelope_of_members {padYear : Bool} {e e' : Server.Envelope}
    {bytes bytes' : Bytes} (h : Accepted padYear e bytes)
    (h' : Accepted padYear e' bytes')
    (heq : signedMembers e (e.payload.val.sortKeys pyLe) =
      signedMembers e' (e'.payload.val.sortKeys pyLe)) : SameEnvelope e e' := by
  simp only [signedMembers, List.cons_append, List.nil_append, List.cons.injEq,
    Prod.mk.injEq, Json.str.injEq, true_and] at heq
  obtain ⟨hagent, hcommand, hversion, hexpires, hissued, hkind, hnonce,
    hpayload, hschema, hrest⟩ := heq
  refine ⟨hversion, hschema, hcommand, hagent, hkind, hpayload, hissued,
    hexpires, hnonce, ?_⟩
  rcases signingKeyId_of_ok h.keyId with ⟨hv, k, hk⟩ | ⟨hv, hk⟩
  · rcases signingKeyId_of_ok h'.keyId with ⟨hv', k', hk'⟩ | ⟨hv', hk'⟩
    · rw [if_pos hv, if_pos hv', hk, hk'] at hrest
      simp only [List.cons.injEq, Prod.mk.injEq, Json.str.injEq, true_and,
        Option.getD_some, and_true] at hrest
      rw [hk, hk', hrest]
    · exact absurd (hversion ▸ hv) hv'
  · rcases signingKeyId_of_ok h'.keyId with ⟨hv', k', hk'⟩ | ⟨hv', hk'⟩
    · exact absurd (hversion ▸ hv') hv
    · rw [hk, hk']

/-- Two accepted envelopes with the same canonical bytes are equal in every
field. -/
theorem canonicalCommandBytes_injective {padYear : Bool}
    {e e' : Server.Envelope} {bytes : Bytes}
    (h : canonicalCommandBytes padYear e = .ok bytes)
    (h' : canonicalCommandBytes padYear e' = .ok bytes) : SameEnvelope e e' := by
  have ha := accepted_of_ok h
  have ha' := accepted_of_ok h'
  have htext := utf8_injective (ha.bytes_eq.symm.trans ha'.bytes_eq)
  have hsame := samePayload_of_canonicalText ha.scalar ha'.scalar htext
  rw [SamePayload, sortKeys_signedDocument ha.schema,
    sortKeys_signedDocument ha'.schema] at hsame
  exact sameEnvelope_of_members ha ha' (Json.obj.inj hsame)

/-- `sampleEnvelope` with the keys of its payload the other way round. -/
def reorderedEnvelope : Server.Envelope :=
  { sampleEnvelope with
    payload := ⟨.obj [(py "n", .arr [.num (.int (-7)), .null]),
      (py "script", .str (py "echo \"é\u2028\""))], by
        simp only [Json.distinctKeys_obj, List.forall_mem_cons,
          Json.distinctKeys_arr]
        refine ⟨by decide, ⟨trivial, trivial, ?_⟩, trivial, ?_⟩ <;>
          exact fun _ h => nomatch h⟩ }

theorem canonicalCommandBytes_injective_sample :
    SameEnvelope sampleEnvelope reorderedEnvelope :=
  @canonicalCommandBytes_injective true sampleEnvelope reorderedEnvelope
    sampleBytes canonicalCommandBytes_sample
    (eq_ok_of_toOption (by decide +kernel))

end NodeLink.Proofs
