import NodeLink.Agent.Verify
import NodeLink.Proofs.WireText
import NodeLink.Server.CommandEnvelope

/-!
# Server and agent sign the same bytes

Whenever the server's `canonical_command_bytes` returns bytes, the agent's
`canonicalCommandBytes`, on the fields and the payload as they travel,
returns the same bytes.

The argument goes check by check. Identifiers, nonces, key ids and times
are decided by character codes, which the wire keeps. A payload that passes
the server's walk passes the agent's, and reading its wire text gives it
back. What is left is the text itself: the agent sorts by bytes where the
server sorts by code points, and escapes the two line separators while it
writes where the server replaces them afterwards.
-/

namespace NodeLink.Proofs

open Lib

/-- `JSONResponse.render` on a payload. -/
def responseBytes (payload : Server.Payload) : Option Bytes :=
  encodeUtf8 (dumps false payload.val)

/-- A schema version as an integer field of the wire carries it. -/
def wireInt : PyJson → Option Int
  | .num (.int i) => some i
  | _ => none

/-- The envelope the agent receives for one the server sends. A missing key
id is a missing argument. -/
def deliver (e : Server.Envelope) : Option Agent.Envelope := do
  let envelopeVersion ← wireString e.envelopeVersion
  let schemaVersion ← wireInt e.schemaVersion
  let commandID ← wireString e.commandId
  let agentID ← wireString e.agentId
  let kind ← wireString e.kind
  let payload ← responseBytes e.payload
  let issuedAt ← wireString e.issuedAt
  let expiresAt ← wireString e.expiresAt
  let nonce ← wireString e.nonce
  let signingKeyIDs ← match e.signingKeyId with
    | none => some []
    | some keyId => (wireString keyId).map fun k => [k]
  some ⟨envelopeVersion, schemaVersion, commandID, agentID, kind, payload,
    issuedAt, expiresAt, nonce, signingKeyIDs⟩

/-! ## Times -/

/-- The agent pads the year where the server's platform may not, but a
timestamp in the server's own format has its year in full. -/
theorem parseCommandTime_agree {padYear : Bool} {field : String} {raw : PyStr}
    {st : Stamp} (hraw : Scalar raw)
    (h : Server.parseCommandTime padYear field raw = .ok st) :
    Agent.parseCommandTime field (textOf raw) = .ok st := by
  unfold Server.parseCommandTime at h
  split at h
  · cases h
  · next hne =>
      split at h
      · cases h
      · next parsed hmatch =>
          rw [require_bind_eq_ok, require_bind_eq_ok] at h
          obtain ⟨⟨-, hdate⟩, hformat, h⟩ := h
          obtain rfl : parsed = st := by injection h
          obtain ⟨hyear, hcodes⟩ := matchTime_eq hmatch
          have hmicro : (if parsed.micro.getD 0 = 0 then none
              else parsed.micro) = parsed.micro := by
            cases hm : parsed.micro with
            | none => rfl
            | some us =>
                rw [if_neg]
                intro h0
                -- a written zero fraction makes the raw text longer
                have hlen := congrArg List.length (hformat.trans hcodes)
                have hy : (Server.strftimeYear padYear parsed.year).length ≤ 4 := by
                  unfold Server.strftimeYear
                  split
                  · simp
                  · rw [List.length_map]
                    exact (Nat.length_toDigits_le_iff (by omega) (by omega)).mpr
                      hyear
                simp [Server.formatCommandTime, stampTail, hm, h0,
                  fractionText] at hlen
                omega
          have hne' : textOf raw ≠ "" := by
            intro h0
            have := textOf_codes hraw
            rw [h0] at this
            exact hne (List.map_eq_nil_iff.mp this.symm)
          rw [Agent.parseCommandTime, if_neg hne', textOf_codes hraw, hmatch]
          simp only [Agent.formatCommandTime, hmicro]
          rw [require_bind_eq_ok]
          exact ⟨⟨hdate, hcodes.symm⟩, rfl⟩

theorem validateCommandWindow_agree {padYear : Bool} {issuedAt expiresAt : PyStr}
    {w : Stamp × Stamp} (hi : Scalar issuedAt) (he : Scalar expiresAt)
    (h : Server.validateCommandWindow padYear issuedAt expiresAt = .ok w) :
    Agent.validateCommandTimePair (textOf issuedAt) (textOf expiresAt) =
      .ok (Agent.Stamp.instant w.1, Agent.Stamp.instant w.2) := by
  unfold Server.validateCommandWindow at h
  rw [bind_eq_ok] at h
  obtain ⟨issued, hissued, h⟩ := h
  rw [bind_eq_ok] at h
  obtain ⟨expires, hexpires, h⟩ := h
  rw [require_bind_eq_ok, require_bind_eq_ok] at h
  obtain ⟨hlater, hlife, h⟩ := h
  obtain rfl : (issued, expires) = w := by injection h
  rw [Agent.validateCommandTimePair, bind_eq_ok]
  refine ⟨issued, parseCommandTime_agree hi hissued, ?_⟩
  rw [bind_eq_ok]
  refine ⟨expires, parseCommandTime_agree he hexpires, ?_⟩
  rw [require_bind_eq_ok, require_bind_eq_ok]
  unfold Server.maxCommandLifetimeSeconds at hlife
  unfold Agent.Stamp.instant Agent.maxCommandLifetime Agent.second
  exact ⟨by omega, by omega, rfl⟩

/-! ## Payloads -/

theorem parseInt64_intDigits {i : Int} (h : -(2 ^ 63) ≤ i ∧ i < 2 ^ 63) :
    Agent.parseInt64 (String.ofList (intDigits i)) = some i := by
  have hdig : ∀ x ∈ Nat.toDigits 10 i.natAbs, x.isDigit = true := by
    intro x hx
    exact Nat.isDigit_of_mem_toDigits (by omega) (by omega) hx
  have hall : (Nat.toDigits 10 i.natAbs).all Char.isDigit = true :=
    List.all_eq_true.mpr hdig
  have hne := Nat.toDigits_ne_nil (n := i.natAbs) (b := 10)
  unfold Agent.parseInt64 intDigits
  rw [String.toList_ofList]
  by_cases hneg : i < 0
  · simp only [if_pos hneg, List.head?_cons, if_true, List.tail_cons]
    rw [if_neg (by simp [hne, hall]), Nat.ofDigitChars_ten_toDigits,
      if_pos (by omega)]
    congr 1
    omega
  · have hhead : (Nat.toDigits 10 i.natAbs).head? ≠ some '-' := by
      intro hh
      have := hdig '-' (List.mem_of_mem_head? hh)
      exact absurd this (by decide)
    simp only [if_neg hneg, if_neg hhead]
    rw [if_neg (by simp [hne, hall]), Nat.ofDigitChars_ten_toDigits,
      if_pos (by omega)]
    congr 1
    omega

theorem intDigits_no_float (i : Int) :
    (intDigits i).any Agent.isFloatRune = false := by
  rw [List.any_eq_false]
  intro c hc
  have hdig : c = '-' ∨ c.isDigit = true := by
    unfold intDigits at hc
    split at hc
    · rcases List.mem_cons.mp hc with rfl | hc
      · exact Or.inl rfl
      · exact Or.inr (Nat.isDigit_of_mem_toDigits (by omega) (by omega) hc)
    · exact Or.inr (Nat.isDigit_of_mem_toDigits (by omega) (by omega) hc)
  intro hf
  simp only [Agent.isFloatRune, Bool.or_eq_true, beq_iff_eq] at hf
  rcases hdig with rfl | hdig
  · exact absurd hf (by decide)
  · rcases hf with (rfl | rfl) | rfl <;> exact absurd hdig (by decide)

theorem intDigits_ascii {i : Int} {c : Char} (h : c ∈ intDigits i) :
    c.toNat < 0x80 := by
  have hdig : ∀ d : Char, d.isDigit = true → d.toNat < 0x80 := by
    intro d hd
    have hle := (Char.isDigit_iff_toNat.mp hd).2
    have hnine : '9'.toNat = 57 := rfl
    omega
  unfold intDigits at h
  split at h
  · rcases List.mem_cons.mp h with rfl | h
    · decide
    · exact hdig c (Nat.isDigit_of_mem_toDigits (by omega) (by omega) h)
  · exact hdig c (Nat.isDigit_of_mem_toDigits (by omega) (by omega) h)

theorem serverItems_ok {items : List PyJson} {depth : Nat} {u : Unit} :
    Server.validatePayloadItems items depth = .ok u ↔
      ∀ v ∈ items, Server.validatePayloadValue v (depth + 1) = .ok () := by
  induction items with
  | nil => simp [Server.validatePayloadItems]
  | cons v vs ih =>
      rw [Server.validatePayloadItems, unit_bind_eq_ok, ih]
      simp

theorem serverMembers_ok {members : List (PyStr × PyJson)} {depth : Nat}
    {u : Unit} :
    Server.validatePayloadMembers members depth = .ok u ↔
      ∀ m ∈ members, Server.validatePayloadValue m.2 (depth + 1) = .ok () := by
  induction members with
  | nil => simp [Server.validatePayloadMembers]
  | cons m ms ih =>
      rw [Server.validatePayloadMembers, unit_bind_eq_ok, ih]
      simp

theorem agentItems_ok {items : List (Json String String)} {depth : Nat}
    {u : Unit} :
    Agent.validatePayloadItems items depth = .ok u ↔
      ∀ v ∈ items, Agent.validatePayloadValue v (depth + 1) = .ok () := by
  induction items with
  | nil => simp [Agent.validatePayloadItems]
  | cons v vs ih =>
      rw [Agent.validatePayloadItems, unit_bind_eq_ok, ih]
      simp

theorem agentMembers_ok {members : List (String × Json String String)}
    {depth : Nat} {u : Unit} :
    Agent.validatePayloadMembers members depth = .ok u ↔
      ∀ m ∈ members, Agent.validatePayloadValue m.2 (depth + 1) = .ok () := by
  induction members with
  | nil => simp [Agent.validatePayloadMembers]
  | cons m ms ih =>
      rw [Agent.validatePayloadMembers, unit_bind_eq_ok, ih]
      simp

/-- What the server's walk lets through: integers only, nested no deeper
than the agent's decoder goes, and the agent's walk lets it through too. -/
theorem validatePayloadValue_agree {v : PyJson} {depth : Nat}
    (h : Server.validatePayloadValue v depth = .ok ()) :
    v.All (fun _ => True) IsInt ∧
      Agent.validatePayloadValue (onTheWire v) depth = .ok () ∧
      depth + v.nesting ≤ 17 := by
  induction v using Json.ind generalizing depth with
  | null =>
      rw [Server.validatePayloadValue, require_bind_eq_ok] at h
      rw [onTheWire, Json.map_null, Agent.validatePayloadValue,
        require_bind_eq_ok]
      exact ⟨trivial, ⟨h.1, rfl⟩, Nat.le_succ_of_le h.1⟩
  | bool b =>
      rw [Server.validatePayloadValue, require_bind_eq_ok] at h
      rw [onTheWire, Json.map_bool, Agent.validatePayloadValue,
        require_bind_eq_ok]
      exact ⟨trivial, ⟨h.1, rfl⟩, Nat.le_succ_of_le h.1⟩
  | str s =>
      rw [Server.validatePayloadValue, require_bind_eq_ok] at h
      rw [onTheWire, Json.map_str, Agent.validatePayloadValue,
        require_bind_eq_ok]
      exact ⟨trivial, ⟨h.1, rfl⟩, Nat.le_succ_of_le h.1⟩
  | num n =>
      cases n with
      | float r =>
          rw [Server.validatePayloadValue, require_bind_eq_ok] at h
          cases h.2
      | int i =>
          rw [Server.validatePayloadValue, require_bind_eq_ok] at h
          obtain ⟨hdepth, h⟩ := h
          have hrange := require_eq_ok.mp h
          have hi : -(2 ^ 63) ≤ i ∧ i < 2 ^ 63 := by
            unfold Server.minSignedInteger Server.maxSignedInteger at hrange
            omega
          rw [onTheWire, Json.map_num, Agent.validatePayloadValue,
            require_bind_eq_ok]
          refine ⟨trivial, ⟨hdepth, ?_⟩, Nat.le_succ_of_le hdepth⟩
          have hfloat : (numberText (.int i)).toList.any Agent.isFloatRune
              = false := by
            rw [numberText, String.toList_ofList]
            exact intDigits_no_float i
          have hparse : (Agent.parseInt64 (numberText (.int i))).isSome
              = true := by
            rw [numberText, parseInt64_intDigits hi]
            rfl
          rw [require_bind_eq_ok]
          exact ⟨hfloat, require_eq_ok.mpr hparse⟩
  | arr vs ih =>
      rw [Server.validatePayloadValue, require_bind_eq_ok] at h
      obtain ⟨hdepth, h⟩ := h
      have hitems := serverItems_ok.mp h
      rw [onTheWire, Json.map_arr, Agent.validatePayloadValue,
        require_bind_eq_ok, agentItems_ok]
      refine ⟨Json.all_arr.mpr fun v hv => (ih v hv (hitems v hv)).1,
        ⟨hdepth, ?_⟩, ?_⟩
      · intro w hw
        obtain ⟨v, hv, rfl⟩ := List.mem_map.mp hw
        exact (ih v hv (hitems v hv)).2.1
      · have hmax : (Json.arr vs).nesting ≤ 16 - depth + 1 :=
          Json.nesting_arr_le fun v hv => by
            have := (ih v hv (hitems v hv)).2.2
            omega
        unfold Server.maxCommandPayloadDepth at hdepth
        omega
  | obj ms ih =>
      rw [Server.validatePayloadValue, require_bind_eq_ok] at h
      obtain ⟨hdepth, h⟩ := h
      have hmembers := serverMembers_ok.mp h
      rw [onTheWire, Json.map_obj, Agent.validatePayloadValue,
        require_bind_eq_ok, agentMembers_ok]
      refine ⟨Json.all_obj.mpr fun m hm =>
        ⟨trivial, (ih m hm (hmembers m hm)).1⟩, ⟨hdepth, ?_⟩, ?_⟩
      · intro w hw
        obtain ⟨m, hm, rfl⟩ := List.mem_map.mp hw
        exact (ih m hm (hmembers m hm)).2.1
      · have hmax : (Json.obj ms).nesting ≤ 16 - depth + 1 :=
          Json.nesting_obj_le fun m hm => by
            have := (ih m hm (hmembers m hm)).2.2
            omega
        unfold Server.maxCommandPayloadDepth at hdepth
        omega

theorem lastMembers_of_nodup {β : Type} {ms : List (String × β)}
    (h : (ms.map Prod.fst).Nodup) : Agent.lastMembers ms = ms := by
  induction ms with
  | nil => rfl
  | cons m ms ih =>
      rw [List.map_cons, List.nodup_cons] at h
      have hnot : ms.any (fun n => n.1 == m.1) = false := by
        rw [List.any_eq_false]
        intro n hn
        rw [beq_iff_eq]
        intro heq
        exact h.1 (List.mem_map.mpr ⟨n, hn, heq⟩)
      rw [Agent.lastMembers, hnot, if_neg (by simp), ih h.2]

theorem asAny_of_distinctKeys {v : Json String String} (h : v.DistinctKeys) :
    Agent.asAny v = v := by
  induction v using Json.ind with
  | null => rfl
  | bool b => rfl
  | num n => rfl
  | str s => rfl
  | arr vs ih =>
      rw [Json.distinctKeys_arr] at h
      rw [Agent.asAny, Json.fold_arr]
      congr 1
      exact (List.map_congr_left fun v hv => ih v hv (h v hv)).trans
        (List.map_id vs)
  | obj ms ih =>
      rw [Json.distinctKeys_obj] at h
      have hms : ms.map (Prod.map id Agent.asAny) = ms := by
        refine (List.map_congr_left fun m hm => ?_).trans (List.map_id ms)
        exact Prod.ext rfl (ih m hm (h.2 m hm))
      rw [Agent.asAny, Json.fold_obj]
      show Json.obj (Agent.lastMembers (ms.map (Prod.map id Agent.asAny))) = _
      rw [hms, lastMembers_of_nodup h.1]

theorem numerals_onTheWire {v : PyJson} (h : v.All Scalar IsInt) :
    Numerals (onTheWire v) := by
  induction v using Json.ind with
  | null => trivial
  | bool b => trivial
  | str s => trivial
  | num n =>
      cases n with
      | float r => exact h.elim
      | int i =>
          show Numeral (numberText (.int i)).toList
          rw [numberText, String.toList_ofList]
          exact numeral_intDigits i
  | arr vs ih =>
      rw [onTheWire, Json.map_arr]
      refine Json.all_arr.mpr fun w hw => ?_
      obtain ⟨v, hv, rfl⟩ := List.mem_map.mp hw
      exact ih v hv (Json.all_arr.mp h v hv)
  | obj ms ih =>
      rw [onTheWire, Json.map_obj]
      refine Json.all_obj.mpr fun w hw => ?_
      obtain ⟨m, hm, rfl⟩ := List.mem_map.mp hw
      exact ⟨trivial, ih m hm (Json.all_obj.mp h m hm).2⟩

/-- What a valid payload becomes: it can be sent, and the agent decodes what
was sent to the same value. -/
theorem validateCommandPayload_agree {payload : Server.Payload}
    (h : Server.validateCommandPayload payload = .ok ()) :
    payload.val.All Scalar IsInt ∧
      ∃ bytes, responseBytes payload = some bytes ∧
        Agent.decodePayload bytes = .ok (onTheWire payload.val) ∧
        Agent.isObject (onTheWire payload.val) = true ∧
        Agent.validatePayloadValue (onTheWire payload.val) 0 = .ok () := by
  rw [Server.validateCommandPayload, require_bind_eq_ok, unit_bind_eq_ok,
    bind_eq_ok] at h
  obtain ⟨hdict, hwalk, encoded, hencoded, -⟩ := h
  obtain ⟨hint, hagent, hnesting⟩ := validatePayloadValue_agree hwalk
  have hscalar : Scalar (dumps true payload.val) := by
    unfold Server.encodeOrRaise encodeUtf8 at hencoded
    by_cases hs : (dumps true payload.val).all isScalar = true
    · exact hs
    · rw [if_neg hs] at hencoded
      cases hencoded
  have hall := all_scalar_of_dumps hscalar hint
  have hnum := numerals_onTheWire hall
  have htext : (dumps false payload.val).map toChar =
      jsonText pyEscapeChar (onTheWire payload.val) := render_toChar hall
  refine ⟨hall, utf8 (jsonText pyEscapeChar (onTheWire payload.val)), ?_, ?_,
    ?_, hagent⟩
  · have hs : (dumps false payload.val).all isScalar = true :=
      scalar_dumps hall
    rw [responseBytes, encodeUtf8, if_pos hs, htext]
  · have hdistinct : (onTheWire payload.val).DistinctKeys :=
      payload.property.map (fun s t hs ht => textOf_injective hs ht) hall
    have hread := readJson_jsonText readable_pyEscapeChar hnum (by
      rw [onTheWire, Json.nesting_map]
      unfold maxNesting
      omega)
    obtain ⟨c, t, hct, -, -⟩ := jsonText_head pyEscapeChar hnum
    have hne : utf8 (jsonText pyEscapeChar (onTheWire payload.val)) ≠ [] := by
      rw [hct, utf8_cons]
      simp
    rw [Agent.decodePayload, if_neg hne, decodeUtf8_utf8, hread]
    simp only [skipSpace, List.dropWhile_nil, if_true,
      asAny_of_distinctKeys hdistinct]
  · cases hv : payload.val with
    | obj ms =>
        rw [onTheWire, Json.map_obj]
        rfl
    | null | bool _ | num _ | str _ | arr _ =>
        rw [hv] at hdict
        cases hdict

/-! ## Canonical text -/

/-- The separators an encoder may have to escape after the fact. -/
def escapeSeparator (c : Char) : List Char :=
  if c.toNat = 0x2028 ∨ c.toNat = 0x2029 then unicodeEscape lit1 c.toNat
  else [c]

theorem map_toChar_escapeSeparators (s : PyStr) :
    (Server.escapeSeparators s).map toChar =
      (s.map toChar).flatMap escapeSeparator := by
  rw [Server.escapeSeparators, List.map_flatMap, List.flatMap_map]
  congr 1
  funext c
  by_cases hc : isScalar c = true
  · rw [escapeSeparator, toNat_toChar hc]
    split
    · simp [unicodeEscape, lit1]
    · rfl
  · have hv : ¬ c.val.isValidChar := fun h => hc (decide_eq_true h)
    have hne : ¬ (c.val = 0x2028 ∨ c.val = 0x2029) := by
      intro h
      refine hv (Or.inl ?_)
      omega
    have hzero : toChar c = Char.ofNat 0 := by
      rw [toChar, Char.ofNat, dif_neg hv]
      rfl
    rw [if_neg hne, List.map_singleton, hzero]
    rfl

theorem scalar_escapeSeparators {s : PyStr}
    (h : Scalar (Server.escapeSeparators s)) : Scalar s := by
  rw [scalar_iff] at h ⊢
  intro c hc
  by_cases hsep : c.val = 0x2028 ∨ c.val = 0x2029
  · refine decide_eq_true (Or.inl ?_)
    omega
  · refine h c (List.mem_flatMap.mpr ⟨c, hc, ?_⟩)
    rw [if_neg hsep]
    exact List.mem_singleton_self c

/-- Escaping a separator afterwards is escaping it while writing. -/
theorem escapeSeparator_pyEscapeChar (c : Char) :
    (pyEscapeChar c).flatMap escapeSeparator = Agent.appendString c := by
  have hafter : escapeSeparator =
      escapeAfter fun n => n == 0x2028 || n == 0x2029 := by
    funext d
    simp only [escapeSeparator, escapeAfter, Bool.or_eq_true, beq_iff_eq]
  rw [hafter]
  exact flatMap_escapeAfter (by decide) c

theorem escapeSeparator_ascii {c : Char} (h : c.toNat < 0x80) :
    escapeSeparator c = [c] := by
  rw [escapeSeparator, if_neg (by omega)]

theorem escapeSeparator_numeral {l : List Char}
    (h : ∀ c ∈ l, c.toNat < 0x80) : l.flatMap escapeSeparator = l := by
  induction l with
  | nil => rfl
  | cons c l ih =>
      rw [List.flatMap_cons, escapeSeparator_ascii (h c (by simp)),
        ih fun d hd => h d (by simp [hd])]
      rfl

/-- The two canonical texts are one. -/
theorem canonicalText_agree {v : PyJson} (hv : v.All Scalar IsInt) :
    (Server.escapeSeparators (dumps true v)).map toChar =
      Agent.canonicalText (onTheWire v) := by
  have hsorted : (onTheWire v).sortKeys Agent.keyLe =
      onTheWire (v.sortKeys pyLe) :=
    Json.sortKeys_map pyLe (fun s t hs ht => pyLe_iff hs ht) hv
  have hdumps : (dumps true v).map toChar =
      jsonText pyEscapeChar (onTheWire (v.sortKeys pyLe)) :=
    render_toChar (hv.sortKeys pyLe)
  rw [map_toChar_escapeSeparators, hdumps, jsonText, Json.flatMap_render,
    Agent.canonicalText, hsorted, onTheWire, Json.render_map, Json.render_map]
  refine Json.render_congr ?_ ?_ ?_ (hv.sortKeys pyLe)
  · intro c hc
    simp [lit1, escapeSeparator_ascii hc]
  · intro s _
    rw [List.flatMap_assoc]
    congr 1
    funext c
    exact escapeSeparator_pyEscapeChar c
  · intro n hn
    cases n with
    | float r => exact hn.elim
    | int i =>
        refine escapeSeparator_numeral ?_
        intro c hc
        rw [numberText, String.toList_ofList] at hc
        exact intDigits_ascii hc

/-! ## The envelope -/

theorem textOf_ne_empty {s : PyStr} (hs : Scalar s) (h : s ≠ []) :
    textOf s ≠ "" := by
  intro h0
  have hcodes := textOf_codes hs
  rw [h0] at hcodes
  exact h (List.map_eq_nil_iff.mp hcodes.symm)

theorem noncePattern_agree {s : PyStr} (hs : Scalar s)
    (h : Server.matchesNonce (s.map Fin.val) = true) :
    Agent.noncePattern (textOf s) = true := by
  rw [Agent.noncePattern, textOf_codes hs]
  exact h

theorem keyIDPattern_agree {s : PyStr} (hs : Scalar s)
    (h : Server.matchesKeyId (s.map Fin.val) = true) :
    Agent.keyIDPattern (textOf s) = true := by
  rw [Agent.keyIDPattern, textOf_codes hs]
  exact h

theorem kind_agree {s : PyStr} (h : s ∈ Server.supportedCommandKinds) :
    textOf s ∈ Agent.commandKinds := by
  obtain ⟨kind, hkind, rfl⟩ := List.mem_map.mp h
  rw [textOf_py]
  exact hkind

/-- The envelope the agent receives, spelled out for one the server has
encoded. -/
def received (e : Server.Envelope) (payload : Bytes) : Agent.Envelope where
  envelopeVersion := textOf e.envelopeVersion
  schemaVersion := 1
  commandID := textOf e.commandId
  agentID := textOf e.agentId
  kind := textOf e.kind
  payload := payload
  issuedAt := textOf e.issuedAt
  expiresAt := textOf e.expiresAt
  nonce := textOf e.nonce
  signingKeyIDs := e.signingKeyId.toList.map textOf

/-- Every string of the signed document can be sent. -/
structure Sendable (e : Server.Envelope) : Prop where
  envelopeVersion : Scalar e.envelopeVersion
  commandId : Scalar e.commandId
  agentId : Scalar e.agentId
  kind : Scalar e.kind
  issuedAt : Scalar e.issuedAt
  expiresAt : Scalar e.expiresAt
  nonce : Scalar e.nonce
  signingKeyId : ∀ k, e.signingKeyId = some k → Scalar k

theorem deliver_eq {e : Server.Envelope} {payload : Bytes} (hs : Sendable e)
    (hschema : e.schemaVersion = .num (.int 1))
    (hpayload : responseBytes e.payload = some payload) :
    deliver e = some (received e payload) := by
  unfold deliver
  rw [wireString_of_scalar hs.envelopeVersion, hschema,
    wireString_of_scalar hs.commandId, wireString_of_scalar hs.agentId,
    wireString_of_scalar hs.kind, hpayload, wireString_of_scalar hs.issuedAt,
    wireString_of_scalar hs.expiresAt, wireString_of_scalar hs.nonce]
  cases hk : e.signingKeyId with
  | none =>
      rw [received, hk]
      rfl
  | some k =>
      rw [received, hk]
      simp only [wireString_of_scalar (hs.signingKeyId k hk)]
      rfl

theorem onTheWire_signedDocument {e : Server.Envelope} (payload : Bytes)
    (hversion : e.envelopeVersion = Server.commandEnvelopeV3 ∨
      e.envelopeVersion = Server.commandEnvelopeV2)
    (hschema : e.schemaVersion = .num (.int 1)) :
    onTheWire (Server.signedDocument e) =
      Agent.signedDocument (received e payload) (onTheWire e.payload.val) := by
  have hkey : textOf (e.signingKeyId.getD []) =
      ((e.signingKeyId.toList.map textOf).head?).getD "" := by
    cases e.signingKeyId <;> rfl
  unfold onTheWire Server.signedDocument Agent.signedDocument
    Agent.Envelope.signingKeyID
  rcases hversion with hv | hv
  · rw [if_pos hv, if_pos (show (received e payload).envelopeVersion =
      Agent.commandEnvelopeV3 by simp only [received, hv]; exact textOf_py _)]
    simp only [Json.map_obj, List.map_append, List.map_cons, List.map_nil,
      Prod.map, textOf_py, Json.map_str, hschema, Json.map_num, received, hkey]
    rfl
  · rw [if_neg (by rw [hv]; decide), if_neg (show ¬ (received e
      payload).envelopeVersion = Agent.commandEnvelopeV3 by
        simp only [received, hv, Server.commandEnvelopeV2, textOf_py]; decide)]
    simp only [Json.map_obj, List.map_append, List.map_cons, List.map_nil,
      Prod.map, textOf_py, Json.map_str, hschema, Json.map_num, received]
    rfl

theorem checkSchemaVersion_ok {v : PyJson}
    (h : Server.checkSchemaVersion v = .ok ()) : v = .num (.int 1) := by
  unfold Server.checkSchemaVersion at h
  split at h
  · cases h
  · next value => rw [require_eq_ok.mp h]; rfl
  · cases h

theorem signedDocument_ints {e : Server.Envelope}
    (hschema : e.schemaVersion = .num (.int 1))
    (hpay : e.payload.val.All Scalar IsInt) :
    (Server.signedDocument e).All (fun _ => True) IsInt := by
  have hpay' : e.payload.val.All (fun _ => True) IsInt :=
    hpay.imp (fun _ _ => trivial) fun _ h => h
  rw [Server.signedDocument, Json.all_obj]
  intro m hm
  refine ⟨trivial, ?_⟩
  rcases List.mem_append.mp hm with hm | hm
  · simp only [List.mem_cons, List.not_mem_nil, or_false] at hm
    rcases hm with rfl | rfl | rfl | rfl | rfl | rfl | rfl | rfl | rfl
    on_goal 8 => exact hpay'
    on_goal 8 => rw [hschema]; trivial
    all_goals trivial
  · split at hm
    · rw [List.mem_singleton.mp hm]
      trivial
    · cases hm

/-- A key id passes the server's check only under version 3. -/
theorem version_of_signingKeyId {v : PyStr} {keyId : Option PyStr}
    (h : Server.checkSigningKeyId v keyId = .ok ()) :
    ∀ k, keyId = some k → v = Server.commandEnvelopeV3 := by
  intro k hk
  unfold Server.checkSigningKeyId at h
  split at h
  · next hv => exact hv
  · rw [require_eq_ok.mp h] at hk
    cases hk

/-- The agent's check of the key id, on what arrives. -/
theorem signingKeyId_agree {e : Server.Envelope} {payload : Bytes}
    (hs : Sendable e)
    (hversion : e.envelopeVersion = Server.commandEnvelopeV3 ∨
      e.envelopeVersion = Server.commandEnvelopeV2)
    (h : Server.checkSigningKeyId e.envelopeVersion e.signingKeyId = .ok ()) :
    Agent.checkSigningKeyID (received e payload) = .ok () := by
  unfold Server.checkSigningKeyId at h
  rcases hversion with hv | hv
  · rw [if_pos hv, require_bind_eq_ok, require_eq_ok] at h
    have hv' : (received e payload).envelopeVersion
        = Agent.commandEnvelopeV3 := by
      simp only [received, hv]
      exact textOf_py _
    rw [Agent.checkSigningKeyID, if_pos hv', require_eq_ok,
      Agent.Envelope.signingKeyID]
    cases hk : e.signingKeyId with
    | none => exact absurd (by rw [hk]; rfl) h.1
    | some k =>
        rw [hk] at h
        simp only [received, hk, Option.toList_some, List.map_cons,
          List.head?_cons, Option.getD_some]
        exact keyIDPattern_agree (hs.signingKeyId k hk) h.2
  · rw [if_neg (by rw [hv]; decide), require_eq_ok] at h
    have hv' : ¬ (received e payload).envelopeVersion
        = Agent.commandEnvelopeV3 := by
      simp only [received, hv, Server.commandEnvelopeV2, textOf_py]
      decide
    rw [Agent.checkSigningKeyID, if_neg hv', require_eq_ok,
      Agent.Envelope.signingKeyID]
    simp [received, h]

/-- A document that encodes has every string of the envelope sendable. -/
theorem sendable_of_all {e : Server.Envelope}
    (hall : (Server.signedDocument e).All Scalar IsInt)
    (hkey : ∀ k, e.signingKeyId = some k →
      e.envelopeVersion = Server.commandEnvelopeV3) : Sendable e := by
  rw [Server.signedDocument, Json.all_obj] at hall
  have hfield : ∀ name s, (py name, Json.str s) ∈ _ → Scalar s :=
    fun name s hmem => (hall _ hmem).2
  refine ⟨hfield "envelope_version" _ (by simp), hfield "command_id" _
    (by simp), hfield "agent_id" _ (by simp), hfield "kind" _ (by simp),
    hfield "issued_at" _ (by simp), hfield "expires_at" _ (by simp),
    hfield "nonce" _ (by simp), ?_⟩
  intro k hk
  refine hfield "signing_key_id" k ?_
  rw [if_pos (hkey k hk), hk]
  simp

/-- What canonical bytes say about the envelope they were made of. -/
structure Accepted (padYear : Bool) (e : Server.Envelope) (bytes : Bytes) :
    Prop where
  version : e.envelopeVersion = Server.commandEnvelopeV3 ∨
    e.envelopeVersion = Server.commandEnvelopeV2
  schema : e.schemaVersion = .num (.int 1)
  ids : e.commandId ≠ [] ∧ e.agentId ≠ [] ∧ e.kind ≠ []
  kind : e.kind ∈ Server.supportedCommandKinds
  nonce : e.nonce ≠ []
  nonceMatch : Server.matchesNonce (e.nonce.map Fin.val) = true
  window : ∃ w, Server.validateCommandWindow padYear e.issuedAt e.expiresAt
    = .ok w
  keyId : Server.checkSigningKeyId e.envelopeVersion e.signingKeyId = .ok ()
  payload : Server.validateCommandPayload e.payload = .ok ()
  scalar : (Server.signedDocument e).All Scalar IsInt
  bytes_eq : bytes = utf8 (Agent.canonicalText
    (onTheWire (Server.signedDocument e)))
  size : bytes.length ≤ Server.maxCommandEnvelopeBytes

theorem accepted_of_ok {padYear : Bool} {e : Server.Envelope} {bytes : Bytes}
    (h : Server.canonicalCommandBytes padYear e = .ok bytes) :
    Accepted padYear e bytes := by
  unfold Server.canonicalCommandBytes at h
  rw [require_bind_eq_ok, unit_bind_eq_ok, require_bind_eq_ok,
    require_bind_eq_ok, require_bind_eq_ok, require_bind_eq_ok, bind_eq_ok] at h
  obtain ⟨hversion, hschema, hids, hkind, hnonce, hnonceMatch, w, hwindow, h⟩ := h
  rw [unit_bind_eq_ok, unit_bind_eq_ok, bind_eq_ok] at h
  obtain ⟨hkeyid, hpayload, encoded, hencoded, h⟩ := h
  rw [require_bind_eq_ok] at h
  obtain ⟨hsize, h⟩ := h
  obtain rfl : encoded = bytes := by injection h
  have hversion' : e.envelopeVersion = Server.commandEnvelopeV3 ∨
      e.envelopeVersion = Server.commandEnvelopeV2 := by
    simpa [Server.supportedCommandEnvelopeVersions] using hversion
  have hschema' := checkSchemaVersion_ok hschema
  obtain ⟨hpay, -⟩ := validateCommandPayload_agree hpayload
  -- the document encodes, so no string of it holds a surrogate
  obtain ⟨hdocScalar, hbytes⟩ :
      Scalar (Server.escapeSeparators (dumps true (Server.signedDocument e))) ∧
        utf8 ((Server.escapeSeparators (dumps true
          (Server.signedDocument e))).map toChar) = encoded := by
    unfold Server.encodeOrRaise encodeUtf8 at hencoded
    by_cases hs : (Server.escapeSeparators (dumps true
        (Server.signedDocument e))).all isScalar = true
    · rw [if_pos hs] at hencoded
      exact ⟨hs, by injection hencoded⟩
    · rw [if_neg hs] at hencoded
      cases hencoded
  have hall := all_scalar_of_dumps (scalar_escapeSeparators hdocScalar)
    (signedDocument_ints hschema' hpay)
  exact ⟨hversion', hschema', hids, hkind, hnonce, hnonceMatch, ⟨w, hwindow⟩,
    hkeyid, hpayload, hall, by rw [← canonicalText_agree hall, hbytes], hsize⟩

/-- Whenever the server returns canonical bytes, the agent returns the same
bytes for the envelope and payload it receives. -/
theorem canonicalCommandBytes_agree {padYear : Bool} {e : Server.Envelope}
    {bytes : Bytes}
    (h : Server.canonicalCommandBytes padYear e = .ok bytes) :
    ∃ e', deliver e = some e' ∧ Agent.canonicalCommandBytes e' = .ok bytes := by
  have ha := accepted_of_ok h
  obtain ⟨w, hwindow⟩ := ha.window
  obtain ⟨-, payload, hresponse, hdecode, hobject, hwalk⟩ :=
    validateCommandPayload_agree ha.payload
  have hsend : Sendable e :=
    sendable_of_all ha.scalar (version_of_signingKeyId ha.keyId)
  refine ⟨received e payload, deliver_eq hsend ha.schema hresponse, ?_⟩
  have hcanon : Agent.marshalCanonical (Agent.signedDocument
      (received e payload) (onTheWire e.payload.val)) = bytes := by
    rw [← onTheWire_signedDocument payload ha.version ha.schema,
      Agent.marshalCanonical, ← ha.bytes_eq]
  have hver : (received e payload).envelopeVersion = Agent.commandEnvelopeV2 ∨
      (received e payload).envelopeVersion = Agent.commandEnvelopeV3 := by
    rcases ha.version with hv | hv
    · exact Or.inr (by simp only [received, hv]; exact textOf_py _)
    · exact Or.inl (by simp only [received, hv]; exact textOf_py _)
  unfold Agent.canonicalCommandBytes
  rw [require_bind_eq_ok, require_bind_eq_ok, require_bind_eq_ok,
    require_bind_eq_ok, require_bind_eq_ok, require_bind_eq_ok,
    require_bind_eq_ok]
  refine ⟨hver, by simp [received], rfl,
    ⟨textOf_ne_empty hsend.commandId ha.ids.1,
      textOf_ne_empty hsend.agentId ha.ids.2.1,
      textOf_ne_empty hsend.kind ha.ids.2.2⟩, kind_agree ha.kind,
    textOf_ne_empty hsend.nonce ha.nonce,
    noncePattern_agree hsend.nonce ha.nonceMatch, ?_⟩
  rw [unit_bind_eq_ok]
  refine ⟨signingKeyId_agree hsend ha.version ha.keyId, ?_⟩
  rw [bind_eq_ok]
  refine ⟨_, validateCommandWindow_agree hsend.issuedAt hsend.expiresAt
    hwindow, ?_⟩
  rw [bind_eq_ok]
  refine ⟨onTheWire e.payload.val, hdecode, ?_⟩
  rw [require_bind_eq_ok, unit_bind_eq_ok, require_bind_eq_ok, hcanon]
  exact ⟨hobject, hwalk, ha.size, rfl⟩

/-- A version 3 envelope with a separator, a quote and a non-ASCII letter in
its payload. -/
def sampleEnvelope : Server.Envelope where
  envelopeVersion := py "command-v3"
  schemaVersion := .num (.int 1)
  commandId := py "c-1"
  agentId := py "a-1"
  kind := py "shell"
  payload := ⟨.obj [(py "script", .str (py "echo \"é\u2028\"")),
    (py "n", .arr [.num (.int (-7)), .null])], by
      simp only [Json.distinctKeys_obj, List.forall_mem_cons,
        Json.distinctKeys_arr]
      refine ⟨by decide, trivial, ⟨trivial, trivial, ?_⟩, ?_⟩ <;>
        exact fun _ h => nomatch h⟩
  issuedAt := py "2024-02-29T23:59:59.500000Z"
  expiresAt := py "2024-03-01T00:10:00Z"
  nonce := py "abcdefghijklmnopqrstuv"
  signingKeyId := some (py "k1")

def sampleBytes : Bytes := utf8 ("\x7b\"agent_id\":\"a-1\",\"command_id\":\"c-1\","
  ++ "\"envelope_version\":\"command-v3\",\"expires_at\":\"2024-03-01T00:10:00Z\","
  ++ "\"issued_at\":\"2024-02-29T23:59:59.500000Z\",\"kind\":\"shell\","
  ++ "\"nonce\":\"abcdefghijklmnopqrstuv\",\"payload\":\x7b\"n\":[-7,null],"
  ++ "\"script\":\"echo \\\"é\\u2028\\\"\"\x7d,\"schema_version\":1,"
  ++ "\"signing_key_id\":\"k1\"\x7d").toList

theorem canonicalCommandBytes_sample :
    Server.canonicalCommandBytes true sampleEnvelope = .ok sampleBytes := by
  refine eq_ok_of_toOption ?_
  rw [sampleBytes]
  simp only [String.toList_append, String.reduceToList]
  decide +kernel

theorem canonicalCommandBytes_agree_sample :
    ∃ e', deliver sampleEnvelope = some e' ∧
      Agent.canonicalCommandBytes e' = .ok sampleBytes :=
  @canonicalCommandBytes_agree true sampleEnvelope sampleBytes
    canonicalCommandBytes_sample

end NodeLink.Proofs
