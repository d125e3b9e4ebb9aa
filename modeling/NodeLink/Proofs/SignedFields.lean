import NodeLink.Agent.Verify
import NodeLink.Lib.JsonRoundTrip

/-!
# Canonical bytes determine the signed fields

Two envelopes with the same canonical bytes have the same identifiers,
times, kind and nonce: the sorted keys put those fields in front of the
payload, and a quoted string reads back whatever follows it.
-/

namespace NodeLink.Proofs

open Lib Agent

theorem readable_appendString : Readable appendString := by
  refine readable_escapeUnit ?_
  intro n hn
  rcases Bool.or_eq_true_iff.mp hn with h | h
  · have := eq_of_beq h; omega
  · have := eq_of_beq h; omega

/-- One string member and the comma after it. -/
def fieldText (name value : String) : List Char :=
  Json.quoted lit1 (fun s : String => s.toList.flatMap appendString) name
    ++ lit1 ':'
    ++ Json.quoted lit1 (fun s : String => s.toList.flatMap appendString) value
    ++ lit1 ','

/-- A quoted string is determined by any text it starts. -/
theorem quoted_append_inj {esc : Char → List Char} (h : Readable esc)
    {s t : String} {rest rest' : List Char}
    (heq : Json.quoted lit1 (fun s : String => s.toList.flatMap esc) s ++ rest =
      Json.quoted lit1 (fun s : String => s.toList.flatMap esc) t ++ rest') :
    s = t ∧ rest = rest' := by
  have hopen : ∀ (u : String) (r : List Char),
      Json.quoted lit1 (fun s : String => s.toList.flatMap esc) u ++ r =
        '"' :: (u.toList.flatMap esc ++ '"' :: r) := by
    intro u r
    simp [Json.quoted, lit1]
  rw [hopen, hopen] at heq
  have hread := readString_flatMap h s rest
  rw [(List.cons.inj heq).2, readString_flatMap h t rest'] at hread
  have := Prod.mk.inj (Option.some.inj hread)
  exact ⟨this.1.symm, this.2.symm⟩

theorem fieldText_append_inj {name s t : String} {rest rest' : List Char}
    (h : fieldText name s ++ rest = fieldText name t ++ rest') :
    s = t ∧ rest = rest' := by
  simp only [fieldText, List.append_assoc] at h
  have h1 := List.append_cancel_left (List.append_cancel_left h)
  obtain ⟨hst, hrest⟩ := quoted_append_inj readable_appendString h1
  exact ⟨hst, List.append_cancel_left hrest⟩

/-- The fields in front of the payload, in key order. -/
def leadingFields (e : Envelope) : List (String × String) :=
  [("agent_id", e.agentID), ("command_id", e.commandID),
    ("envelope_version", e.envelopeVersion), ("expires_at", e.expiresAt),
    ("issued_at", e.issuedAt), ("kind", e.kind), ("nonce", e.nonce)]

/-- The members of a signed document are written in the order of the source,
which is key order. -/
theorem sortMembers_signedDocument (fs : List (String × Json String String))
    (h : fs.map Prod.fst = ["agent_id", "command_id", "envelope_version",
      "expires_at", "issued_at", "kind", "nonce", "payload",
      "schema_version"] ∨
      fs.map Prod.fst = ["agent_id", "command_id", "envelope_version",
      "expires_at", "issued_at", "kind", "nonce", "payload",
      "schema_version", "signing_key_id"]) :
    Json.sortMembers keyLe fs = fs := by
  have hpair : (fs.map Prod.fst).Pairwise keyLe := by
    rcases h with h | h <;> rw [h] <;> decide +kernel
  exact List.Pairwise.insertionSort_eq (List.pairwise_map.mp hpair)

/-- A member with a string value. -/
def stringMember (f : String × String) : String × Json String String :=
  (f.1, .str f.2)

/-- String members in front of other members of an object's text. -/
theorem intercalate_leading (fs : List (String × String))
    {ms : List (String × Json String String)} (hne : ms ≠ []) :
    (lit1 ',').intercalate ((fs.map stringMember ++ ms).map
      (memberText appendString)) =
      (fs.flatMap fun f => fieldText f.1 f.2) ++
        (lit1 ',').intercalate (ms.map (memberText appendString)) := by
  induction fs with
  | nil => rfl
  | cons f fs ih =>
      obtain ⟨m, rest, hm⟩ : ∃ m rest, fs.map stringMember
          ++ ms = m :: rest :=
        List.exists_cons_of_ne_nil (List.append_ne_nil_of_right_ne_nil _ hne)
      have htext : memberText appendString (stringMember f) ++ lit1 ',' =
          fieldText f.1 f.2 := by
        rw [memberText, fieldText, jsonText, stringMember, Json.render_str]
      rw [List.map_cons, List.cons_append, hm, List.map_cons, List.map_cons,
        intercalate_cons_cons, htext, List.flatMap_cons, List.append_assoc,
        ← ih, hm, List.map_cons]

theorem canonicalText_signedDocument (e : Envelope)
    (payload : Json String String) :
    ∃ rest, canonicalText (signedDocument e payload) =
      '{' :: ((leadingFields e).flatMap fun f => fieldText f.1 f.2) ++ rest := by
  obtain ⟨ms, hdoc, hne, hkeys⟩ : ∃ ms, signedDocument e payload =
      .obj ((leadingFields e).map stringMember ++ ms) ∧
      ms ≠ [] ∧ (ms.map Prod.fst = ["payload", "schema_version"] ∨
        ms.map Prod.fst = ["payload", "schema_version", "signing_key_id"]) := by
    refine ⟨_, rfl, by simp, ?_⟩
    by_cases hv : e.envelopeVersion = commandEnvelopeV3
    · exact Or.inr (by rw [if_pos hv]; rfl)
    · exact Or.inl (by rw [if_neg hv]; rfl)
  have hsorted : (signedDocument e payload).sortKeys keyLe =
      .obj ((leadingFields e).map stringMember ++
        ms.map (Prod.map id (Json.sortKeys keyLe))) := by
    rw [hdoc, Json.sortKeys_obj, List.map_append, List.map_map]
    congr 1
    refine sortMembers_signedDocument _ ?_
    rw [List.map_append, List.map_map, List.map_map]
    rcases hkeys with h | h
    · exact Or.inl (by rw [show Prod.fst ∘ Prod.map id (Json.sortKeys keyLe) =
        (Prod.fst : String × Json String String → String) from rfl, h]; rfl)
    · exact Or.inr (by rw [show Prod.fst ∘ Prod.map id (Json.sortKeys keyLe) =
        (Prod.fst : String × Json String String → String) from rfl, h]; rfl)
  have htext : canonicalText (signedDocument e payload) =
      jsonText appendString ((signedDocument e payload).sortKeys keyLe) := rfl
  rw [htext, hsorted, jsonText_obj, intercalate_leading _ (by simpa using hne),
    List.append_assoc]
  exact ⟨_, rfl⟩

/-- The canonical bytes are those of a signed document. -/
theorem canonicalCommandBytes_doc {e : Envelope} {bytes : Bytes}
    (h : canonicalCommandBytes e = .ok bytes) :
    ∃ payload, bytes = utf8 (canonicalText (signedDocument e payload)) := by
  unfold canonicalCommandBytes at h
  rw [require_bind_eq_ok, require_bind_eq_ok, require_bind_eq_ok,
    require_bind_eq_ok, require_bind_eq_ok, require_bind_eq_ok,
    require_bind_eq_ok, unit_bind_eq_ok, bind_eq_ok] at h
  obtain ⟨-, -, -, -, -, -, -, -, w, -, h⟩ := h
  rw [bind_eq_ok] at h
  obtain ⟨payload, -, h⟩ := h
  rw [require_bind_eq_ok, unit_bind_eq_ok, require_bind_eq_ok] at h
  refine ⟨payload, ?_⟩
  injection h.2.2.2 with h
  exact h.symm

/-- What a signature over canonical bytes binds. -/
theorem leadingFields_of_bytes {e e' : Envelope} {bytes : Bytes}
    (h : canonicalCommandBytes e = .ok bytes)
    (h' : canonicalCommandBytes e' = .ok bytes) :
    leadingFields e = leadingFields e' := by
  obtain ⟨payload, hb⟩ := canonicalCommandBytes_doc h
  obtain ⟨payload', hb'⟩ := canonicalCommandBytes_doc h'
  obtain ⟨rest, ht⟩ := canonicalText_signedDocument e payload
  obtain ⟨rest', ht'⟩ := canonicalText_signedDocument e' payload'
  have heq := utf8_injective (hb.symm.trans hb')
  rw [ht, ht'] at heq
  simp only [leadingFields, List.flatMap_cons, List.flatMap_nil,
    List.append_nil, List.cons_append, List.append_assoc] at heq
  obtain ⟨h1, heq⟩ := fieldText_append_inj (List.cons.inj heq).2
  obtain ⟨h2, heq⟩ := fieldText_append_inj heq
  obtain ⟨h3, heq⟩ := fieldText_append_inj heq
  obtain ⟨h4, heq⟩ := fieldText_append_inj heq
  obtain ⟨h5, heq⟩ := fieldText_append_inj heq
  obtain ⟨h6, heq⟩ := fieldText_append_inj heq
  obtain ⟨h7, -⟩ := fieldText_append_inj heq
  rw [leadingFields, leadingFields, h1, h2, h3, h4, h5, h6, h7]

end NodeLink.Proofs
