import Mathlib
import NodeLink.Proofs.SignedBytes

/-!
# Which payloads escape the refusals

A payload is walked before it is encoded, so nesting and numbers are refused
with a code of their own whatever they are. A string that UTF-8 cannot hold is
not looked at: the encoder raises its own exception. And the size of a payload
is taken before the line separators are escaped, so an accepted payload can
still be too large for the envelope.
-/

namespace NodeLink.Proofs.PayloadRefusals

open Lib Server

/-- Whatever is raised is a `CommandEnvelopeError`. -/
def Settled {α : Type} (result : EnvelopeResult α) : Prop :=
  ∀ failure, result = .error failure → ∃ code, failure = .refused code

/-! ## What the walk lets through -/

/-- Integers of 64 bits, and no floats. -/
def InRange : PyNum → Prop
  | .int i => -(2 ^ 63) ≤ i ∧ i < 2 ^ 63
  | .float _ => False

/-- How far down the deepest value stands, the whole being at level 0. -/
def levels : PyJson → Nat :=
  Json.fold 0 (fun _ => 0) (fun _ => 0) (fun _ => 0)
    (fun ns => (ns.map (· + 1)).foldr max 0)
    (fun ms => (ms.map fun m => m.2 + 1).foldr max 0)

/-- An object of values that may be signed: whole numbers in range, and
nothing deeper than the limit. -/
structure Fits (payload : Payload) : Prop where
  dict : isDict payload.val = true
  numbers : payload.val.All (fun _ => True) InRange
  depth : levels payload.val ≤ maxCommandPayloadDepth

/-- No string and no key holds a surrogate. -/
def Encodable (payload : Payload) : Prop :=
  payload.val.All Scalar fun _ => True

theorem foldr_max_le_iff {n : Nat} {ns : List Nat} :
    ns.foldr max 0 ≤ n ↔ ∀ m ∈ ns, m ≤ n := by
  induction ns with
  | nil => exact iff_of_true (Nat.zero_le n) nofun
  | cons m ns ih => rw [List.foldr_cons, Nat.max_le, ih, List.forall_mem_cons]

theorem levels_arr_le {vs : List PyJson} {n : Nat} :
    levels (.arr vs) ≤ n ↔ ∀ v ∈ vs, levels v + 1 ≤ n := by
  rw [levels, Json.fold_arr, foldr_max_le_iff]
  simp only [List.mem_map, forall_exists_index, and_imp,
    forall_apply_eq_imp_iff₂]

theorem levels_obj_le {ms : List (PyStr × PyJson)} {n : Nat} :
    levels (.obj ms) ≤ n ↔ ∀ m ∈ ms, levels m.2 + 1 ≤ n := by
  rw [levels, Json.fold_obj, foldr_max_le_iff]
  simp only [List.mem_map, forall_exists_index, and_imp,
    forall_apply_eq_imp_iff₂, Prod.map_snd]

theorem validatePayloadValue_iff {v : PyJson} {depth : Nat} :
    validatePayloadValue v depth = .ok () ↔
      v.All (fun _ => True) InRange ∧
        depth + levels v ≤ maxCommandPayloadDepth := by
  induction v using Json.ind generalizing depth with
  | null =>
      rw [validatePayloadValue, require_bind_eq_ok]
      exact ⟨fun h => ⟨trivial, h.1⟩, fun h => ⟨h.2, rfl⟩⟩
  | bool b =>
      rw [validatePayloadValue, require_bind_eq_ok]
      exact ⟨fun h => ⟨trivial, h.1⟩, fun h => ⟨h.2, rfl⟩⟩
  | str s =>
      rw [validatePayloadValue, require_bind_eq_ok]
      exact ⟨fun h => ⟨trivial, h.1⟩, fun h => ⟨h.2, rfl⟩⟩
  | num n =>
      cases n with
      | float r =>
          rw [validatePayloadValue, require_bind_eq_ok]
          exact iff_of_false (fun h => by cases h.2) fun h => h.1
      | int i =>
          rw [validatePayloadValue, require_bind_eq_ok, and_comm]
          refine and_congr (require_eq_ok.trans ?_) Iff.rfl
          rw [Json.all_num, InRange, minSignedInteger, maxSignedInteger]
          omega
  | arr vs ih =>
      rw [validatePayloadValue, require_bind_eq_ok, serverItems_ok,
        Json.all_arr]
      constructor
      · rintro ⟨hdepth, hitems⟩
        refine ⟨fun v hv => ((ih v hv).mp (hitems v hv)).1, ?_⟩
        have hlevels : levels (.arr vs) ≤ maxCommandPayloadDepth - depth :=
          levels_arr_le.mpr fun v hv => by
            have := ((ih v hv).mp (hitems v hv)).2
            omega
        omega
      · rintro ⟨hnumbers, hlevels⟩
        refine ⟨by omega, fun v hv => (ih v hv).mpr ⟨hnumbers v hv, ?_⟩⟩
        have := levels_arr_le.mp (le_refl _) v hv
        omega
  | obj ms ih =>
      rw [validatePayloadValue, require_bind_eq_ok, serverMembers_ok,
        Json.all_obj]
      constructor
      · rintro ⟨hdepth, hmembers⟩
        refine ⟨fun m hm => ⟨trivial, ((ih m hm).mp (hmembers m hm)).1⟩, ?_⟩
        have hlevels : levels (.obj ms) ≤ maxCommandPayloadDepth - depth :=
          levels_obj_le.mpr fun m hm => by
            have := ((ih m hm).mp (hmembers m hm)).2
            omega
        omega
      · rintro ⟨hnumbers, hlevels⟩
        refine ⟨by omega, fun m hm => (ih m hm).mpr ⟨(hnumbers m hm).2, ?_⟩⟩
        have := levels_obj_le.mp (le_refl _) m hm
        omega

/-! ## What fails with a code of its own -/

theorem settled_bind {α : Type} {check : EnvelopeResult Unit}
    {rest : Unit → EnvelopeResult α} (hcheck : Settled check)
    (hrest : check = .ok () → Settled (rest ())) :
    Settled (check >>= rest) := by
  cases check with
  | error failure => exact fun failure' h => hcheck failure' (by cases h; rfl)
  | ok u => exact hrest rfl

theorem settled_require {p : Prop} [Decidable p] (code : String) :
    Settled (require p (.refused code)) := by
  intro failure h
  exact ⟨code, (require_eq_error.mp h).2.symm⟩

theorem settled_refused {α : Type} (code : String) :
    Settled (.error (.refused code) : EnvelopeResult α) :=
  fun _ h => ⟨code, (Except.error.inj h).symm⟩

theorem settled_ok {α : Type} (a : α) : Settled (.ok a : EnvelopeResult α) :=
  nofun

theorem settled_validatePayloadValue (v : PyJson) (depth : Nat) :
    Settled (validatePayloadValue v depth) := by
  induction v using Json.ind generalizing depth with
  | null | bool b | str s =>
      rw [validatePayloadValue]
      exact settled_bind (settled_require _) fun _ => settled_ok ()
  | num n =>
      cases n with
      | float r =>
          rw [validatePayloadValue]
          exact settled_bind (settled_require _) fun _ => settled_refused _
      | int i =>
          rw [validatePayloadValue]
          exact settled_bind (settled_require _) fun _ => settled_require _
  | arr vs ih =>
      rw [validatePayloadValue]
      refine settled_bind (settled_require _) fun _ => ?_
      show Settled (validatePayloadItems vs depth)
      induction vs with
      | nil => exact settled_ok ()
      | cons v vs ihs =>
          rw [validatePayloadItems]
          exact settled_bind (ih v List.mem_cons_self _) fun _ =>
            ihs fun w hw => ih w (List.mem_cons_of_mem _ hw)
  | obj ms ih =>
      rw [validatePayloadValue]
      refine settled_bind (settled_require _) fun _ => ?_
      show Settled (validatePayloadMembers ms depth)
      induction ms with
      | nil => exact settled_ok ()
      | cons m ms ihs =>
          rw [validatePayloadMembers]
          exact settled_bind (ih m List.mem_cons_self _) fun _ =>
            ihs fun w hw => ih w (List.mem_cons_of_mem _ hw)

/-! ## Sizes -/

/-- The bytes of a text in UTF-8. -/
def textBytes (s : PyStr) : Nat := (utf8 (s.map toChar)).length

/-- The bytes of the payload's canonical text. -/
def size (payload : Payload) : Nat := textBytes (dumps true payload.val)

def isSeparator (c : CodePoint) : Bool :=
  decide (c.val = 0x2028 ∨ c.val = 0x2029)

/-- How many line separators the payload's strings and keys hold. -/
def separators (payload : Payload) : Nat :=
  (dumps true payload.val).countP isSeparator

theorem textBytes_append (s t : PyStr) :
    textBytes (s ++ t) = textBytes s + textBytes t := by
  rw [textBytes, List.map_append, utf8_append, List.length_append]
  rfl

/-- A separator takes three bytes, and its escape six. -/
theorem textBytes_escapeSeparators (s : PyStr) :
    textBytes (escapeSeparators s) =
      textBytes s + 3 * s.countP isSeparator := by
  induction s with
  | nil => rfl
  | cons c s ih =>
      have hcons : escapeSeparators (c :: s) =
          escapeSeparators [c] ++ escapeSeparators s := by
        rw [escapeSeparators, escapeSeparators, escapeSeparators,
          ← List.flatMap_append, List.singleton_append]
      have hletter : textBytes (escapeSeparators [c]) =
          textBytes [c] + if isSeparator c then 3 else 0 := by
        by_cases hsep : c.val = 0x2028 ∨ c.val = 0x2029
        · rw [isSeparator, decide_eq_true hsep, if_pos rfl]
          obtain rfl | rfl :
              c = ⟨0x2028, by decide⟩ ∨ c = ⟨0x2029, by decide⟩ :=
            hsep.imp (fun h => Fin.ext h) fun h => Fin.ext h
          · decide
          · decide
        · rw [isSeparator, decide_eq_false hsep, escapeSeparators,
            List.flatMap_singleton, if_neg hsep]
          rfl
      have hsplit : textBytes (c :: s) = textBytes [c] + textBytes s :=
        textBytes_append [c] s
      rw [hcons, textBytes_append, hletter, ih, hsplit, List.countP_cons]
      split <;> omega

theorem scalar_append {s t : PyStr} :
    Scalar (s ++ t) ↔ Scalar s ∧ Scalar t := by
  rw [Scalar, List.all_append, Bool.and_eq_true]
  rfl

/-- An escape is ASCII. -/
theorem scalar_escapeSeparators_iff {s : PyStr} :
    Scalar (escapeSeparators s) ↔ Scalar s := by
  refine ⟨scalar_escapeSeparators, fun h => scalar_iff.mpr fun t ht => ?_⟩
  obtain ⟨c, hc, hct⟩ := List.mem_flatMap.mp ht
  split at hct
  · simp only [unicodeEscape, List.cons_append, List.nil_append, List.mem_cons,
      List.not_mem_nil, or_false] at hct
    rcases hct with rfl | rfl | rfl | rfl | rfl | rfl
    all_goals exact isScalar_ofChar _
  · rw [List.mem_singleton.mp hct]
    exact scalar_iff.mp h c hc

theorem encodeOrRaise_of_scalar {s : PyStr} (h : Scalar s) :
    encodeOrRaise s = .ok (utf8 (s.map toChar)) := by
  rw [Scalar] at h
  rw [encodeOrRaise, encodeUtf8, if_pos h]

theorem encodeOrRaise_of_not_scalar {s : PyStr} (h : ¬ Scalar s) :
    encodeOrRaise s = .error .unicodeEncodeError := by
  rw [Scalar] at h
  rw [encodeOrRaise, encodeUtf8, if_neg h]

/-! ## One payload -/

theorem isInt_of_inRange {n : PyNum} (h : InRange n) : IsInt n := by
  cases n with
  | float r => exact h
  | int i => trivial

theorem scalar_dumps_iff {payload : Payload} (hfits : Fits payload) :
    Scalar (dumps true payload.val) ↔ Encodable payload := by
  have hints : payload.val.All (fun _ => True) IsInt :=
    hfits.numbers.imp (fun _ h => h) fun _ => isInt_of_inRange
  constructor
  · intro h
    exact (all_scalar_of_dumps h hints).imp (fun _ h => h) fun _ _ => trivial
  · exact fun h => scalar_dumps (h.and hints)

theorem validateCommandPayload_of_fits {payload : Payload}
    (hfits : Fits payload) :
    validateCommandPayload payload =
      (do
        let encoded ← encodeOrRaise (dumps true payload.val)
        require (encoded.length ≤ maxCommandPayloadBytes)
          (.refused "payload_too_large")) := by
  have hwalk : validatePayloadValue payload.val 0 = .ok () :=
    validatePayloadValue_iff.mpr
      ⟨hfits.numbers, by rw [Nat.zero_add]; exact hfits.depth⟩
  rw [validateCommandPayload, require, if_pos hfits.dict, hwalk]
  rfl

theorem validateCommandPayload_ok_iff {payload : Payload} :
    validateCommandPayload payload = .ok () ↔
      Fits payload ∧ Encodable payload ∧
        size payload ≤ maxCommandPayloadBytes := by
  constructor
  · intro h
    have hfits : Fits payload := by
      rw [validateCommandPayload, require_bind_eq_ok, unit_bind_eq_ok] at h
      obtain ⟨hnumbers, hdepth⟩ := validatePayloadValue_iff.mp h.2.1
      rw [Nat.zero_add] at hdepth
      exact ⟨h.1, hnumbers, hdepth⟩
    rw [validateCommandPayload_of_fits hfits] at h
    refine ⟨hfits, ?_⟩
    by_cases hscalar : Scalar (dumps true payload.val)
    · rw [encodeOrRaise_of_scalar hscalar] at h
      exact ⟨(scalar_dumps_iff hfits).mp hscalar, require_eq_ok.mp h⟩
    · rw [encodeOrRaise_of_not_scalar hscalar] at h
      cases h
  · rintro ⟨hfits, hencodable, hsize⟩
    rw [validateCommandPayload_of_fits hfits,
      encodeOrRaise_of_scalar ((scalar_dumps_iff hfits).mpr hencodable)]
    exact require_eq_ok.mpr hsize

/-- The encoder raises exactly where a payload that passes the walk holds a
surrogate. -/
theorem settled_validateCommandPayload_iff {payload : Payload} :
    Settled (validateCommandPayload payload) ↔
      (Fits payload → Encodable payload) := by
  constructor
  · intro hsettled hfits
    rw [← scalar_dumps_iff hfits]
    by_contra hscalar
    rw [validateCommandPayload_of_fits hfits,
      encodeOrRaise_of_not_scalar hscalar] at hsettled
    obtain ⟨code, hcode⟩ := hsettled _ rfl
    exact nomatch hcode
  · intro h
    by_cases hfits : Fits payload
    · rw [validateCommandPayload_of_fits hfits,
        encodeOrRaise_of_scalar ((scalar_dumps_iff hfits).mpr (h hfits))]
      exact settled_require _
    · -- The walk or the check before it has refused the payload.
      refine settled_bind (settled_require _) fun hdict => ?_
      refine settled_bind (settled_validatePayloadValue _ _) fun hwalk => ?_
      obtain ⟨hnumbers, hdepth⟩ := validatePayloadValue_iff.mp hwalk
      rw [Nat.zero_add] at hdepth
      exact absurd ⟨require_eq_ok.mp hdict, hnumbers, hdepth⟩ hfits

/-! ## The payload in its envelope -/

/-- One item of a list of texts stands between the same two texts whatever it
is. -/
theorem exists_around {τ : Type} (sep : List τ) (xs zs : List (List τ)) :
    ∃ before behind, ∀ y,
      sep.intercalate (xs ++ y :: zs) = before ++ y ++ behind := by
  induction xs with
  | nil =>
      cases zs with
      | nil => exact ⟨[], [], fun y => by simp [List.intercalate]⟩
      | cons z zs =>
          refine ⟨[], sep ++ sep.intercalate (z :: zs), fun y => ?_⟩
          simp [List.intercalate]
  | cons x xs ih =>
      obtain ⟨before, behind, h⟩ := ih
      refine ⟨x ++ sep ++ before, behind, fun y => ?_⟩
      have hstep : sep.intercalate (x :: (xs ++ y :: zs)) =
          x ++ sep ++ sep.intercalate (xs ++ y :: zs) := by
        cases xs with
        | nil => simp [List.intercalate]
        | cons x' xs => simp [List.intercalate]
      rw [List.cons_append, hstep, h]
      simp only [List.append_assoc]

/-- The payload is the eighth member of the document. -/
theorem signedMembers_payload (e : Server.Envelope) (payload : Payload)
    (v : PyJson) :
    signedMembers { e with payload := payload } v =
      (signedMembers e .null).take 7 ++
        (py "payload", v) :: (signedMembers e .null).drop 8 := rfl

theorem exists_document_text {e : Server.Envelope}
    (hschema : e.schemaVersion = .num (.int 1)) :
    ∃ before behind, ∀ payload : Payload,
      dumps true (signedDocument { e with payload := payload }) =
        before ++ dumps true payload.val ++ behind := by
  let lit : Char → PyStr := fun c => [ofChar c]
  let str : PyStr → PyStr := fun s => s.flatMap pyEscape
  let member : PyStr × PyJson → PyStr := fun m =>
    Json.quoted lit str m.1 ++ lit ':' ++ m.2.render lit str pyNumber
  obtain ⟨before, behind, h⟩ := exists_around (lit ',')
    (((signedMembers e .null).take 7).map member)
    (((signedMembers e .null).drop 8).map member)
  refine ⟨lit '{' ++ before ++ Json.quoted lit str (py "payload") ++ lit ':',
    behind ++ lit '}', fun payload => ?_⟩
  have hsort : (signedDocument { e with payload := payload }).sortKeys pyLe =
      .obj (signedMembers { e with payload := payload }
        (payload.val.sortKeys pyLe)) := sortKeys_signedDocument hschema
  rw [dumps, dumps, if_pos rfl, if_pos rfl, hsort, signedMembers_payload,
    Json.render_obj, List.map_append, List.map_cons]
  have hmembers := h (member (py "payload", payload.val.sortKeys pyLe))
  refine (congrArg (fun text => lit '{' ++ text ++ lit '}') hmembers).trans ?_
  simp only [member, List.append_assoc]
  rfl

/-- What canonicalization comes to once the other members are in order. -/
theorem canonicalCommandBytes_replaced {padYear : Bool} {e : Server.Envelope}
    {bytes : Bytes} (h : Accepted padYear e bytes) (payload : Payload) :
    canonicalCommandBytes padYear { e with payload := payload } =
      (do
        validateCommandPayload payload
        let encoded ← encodeOrRaise
          (escapeSeparators
            (dumps true (signedDocument { e with payload := payload })))
        require (encoded.length ≤ maxCommandEnvelopeBytes)
          (.refused "envelope_too_large")
        .ok encoded) := by
  have hversion : e.envelopeVersion ∈ supportedCommandEnvelopeVersions := by
    rcases h.version with hv | hv
    · rw [hv]
      exact List.mem_cons_self
    · rw [hv]
      exact List.mem_cons_of_mem _ List.mem_cons_self
  have hschema : checkSchemaVersion e.schemaVersion = .ok () := by
    rw [h.schema]
    exact require_eq_ok.mpr rfl
  obtain ⟨w, hwindow⟩ := h.window
  rw [canonicalCommandBytes]
  simp only [require, if_pos hversion, hschema, if_pos h.ids, if_pos h.kind,
    if_pos h.nonce, if_pos h.nonceMatch, hwindow, h.keyId]
  rfl

/-- The bytes of the envelope and of its payload differ by as much whatever the
payload is. -/
theorem exists_replaced_text {padYear : Bool} {e : Server.Envelope}
    {bytes : Bytes} (h : canonicalCommandBytes padYear e = .ok bytes)
    {payload : Payload} (hpayload : validateCommandPayload payload = .ok ()) :
    ∃ text, escapeSeparators
        (dumps true (signedDocument { e with payload := payload })) = text ∧
      Scalar text ∧
      textBytes text + (size e.payload + 3 * separators e.payload) =
        bytes.length + (size payload + 3 * separators payload) := by
  have haccepted := accepted_of_ok h
  obtain ⟨before, behind, htext⟩ := exists_document_text haccepted.schema
  have hown := validateCommandPayload_ok_iff.mp haccepted.payload
  have hnew := validateCommandPayload_ok_iff.mp hpayload
  have hdocument : Scalar (dumps true (signedDocument e)) :=
    scalar_dumps haccepted.scalar
  have hbytes : bytes.length =
      textBytes (escapeSeparators (dumps true (signedDocument e))) := by
    rw [haccepted.bytes_eq, textBytes, canonicalText_agree haccepted.scalar]
  have htext_own : dumps true (signedDocument e) =
      before ++ dumps true e.payload.val ++ behind := htext e.payload
  rw [htext_own, scalar_append, scalar_append] at hdocument
  refine ⟨_, rfl, ?_, ?_⟩
  · rw [scalar_escapeSeparators_iff, htext payload, scalar_append,
      scalar_append]
    exact ⟨⟨hdocument.1.1, (scalar_dumps_iff hnew.1).mpr hnew.2.1⟩,
      hdocument.2⟩
  · rw [hbytes, htext payload, htext_own, textBytes_escapeSeparators,
      textBytes_escapeSeparators]
    simp only [textBytes_append, List.countP_append, size, separators]
    omega

/-- In an envelope that is accepted with one payload, another one is refused by
a code of its own or goes through for good exactly when it is refused by the
walk, or it holds no surrogate and, with its separators escaped, leaves room
for the rest of the envelope. -/
theorem payload_refusals_kept_iff (padYear : Bool) (e : Server.Envelope)
    (bytes : Bytes) (h : canonicalCommandBytes padYear e = .ok bytes)
    (payload : Payload) :
    (Settled (validateCommandPayload payload) ∧
        Settled (canonicalCommandBytes padYear { e with payload := payload }) ∧
        (validateCommandPayload payload = .ok () →
          ∃ bytes',
            canonicalCommandBytes padYear { e with payload := payload } =
              .ok bytes')) ↔
      (Fits payload → Encodable payload ∧
        (size payload ≤ maxCommandPayloadBytes →
          bytes.length + (size payload + 3 * separators payload) ≤
            maxCommandEnvelopeBytes +
              (size e.payload + 3 * separators e.payload))) := by
  have hcanonical := canonicalCommandBytes_replaced (accepted_of_ok h) payload
  constructor
  · rintro ⟨hsettled, -, hlater⟩ hfits
    have hencodable := settled_validateCommandPayload_iff.mp hsettled hfits
    refine ⟨hencodable, fun hsize => ?_⟩
    have hpayload :=
      validateCommandPayload_ok_iff.mpr ⟨hfits, hencodable, hsize⟩
    obtain ⟨text, htext, hscalar, hlength⟩ := exists_replaced_text h hpayload
    obtain ⟨bytes', hbytes'⟩ := hlater hpayload
    rw [hcanonical, htext, unit_bind_eq_ok, encodeOrRaise_of_scalar hscalar,
      bind_eq_ok] at hbytes'
    obtain ⟨-, encoded, hencoded, hroom⟩ := hbytes'
    have hroom := (require_bind_eq_ok.mp hroom).1
    rw [← Except.ok.inj hencoded, ← textBytes] at hroom
    omega
  · intro hroom
    have hsettled := settled_validateCommandPayload_iff.mpr
      fun hfits => (hroom hfits).1
    -- What is accepted leaves room for the rest.
    have hthrough : validateCommandPayload payload = .ok () →
        ∃ bytes', canonicalCommandBytes padYear { e with payload := payload } =
          .ok bytes' := by
      intro hpayload
      obtain ⟨hfits, -, hsize⟩ := validateCommandPayload_ok_iff.mp hpayload
      obtain ⟨text, htext, hscalar, hlength⟩ := exists_replaced_text h hpayload
      have hle := (hroom hfits).2 hsize
      refine ⟨utf8 (text.map toChar), ?_⟩
      rw [hcanonical, htext, unit_bind_eq_ok, encodeOrRaise_of_scalar hscalar]
      refine ⟨hpayload, require_bind_eq_ok.mpr ⟨?_, rfl⟩⟩
      rw [← textBytes]
      omega
    refine ⟨hsettled, ?_, hthrough⟩
    cases hpayload : validateCommandPayload payload with
    | error failure =>
        intro failure' hfailure
        rw [hcanonical, hpayload] at hfailure
        obtain ⟨code, rfl⟩ := hsettled failure hpayload
        exact ⟨code, (Except.error.inj hfailure).symm⟩
    | ok u =>
        obtain ⟨bytes', hbytes'⟩ := hthrough hpayload
        rw [hbytes']
        exact settled_ok bytes'

/-! ## A lone surrogate -/

/-- A payload whose one string is a lone surrogate. -/
def surrogatePayload : Payload :=
  ⟨.obj [(py "script", .str [⟨0xD800, by decide⟩])], by
    simp only [Json.distinctKeys_obj, List.forall_mem_cons]
    exact ⟨by decide, trivial, nofun⟩⟩

theorem validateCommandPayload_surrogate :
    validateCommandPayload surrogatePayload = .error .unicodeEncodeError ∧
      ¬ Settled (validateCommandPayload surrogatePayload) := by
  have hraised : validateCommandPayload surrogatePayload =
      .error .unicodeEncodeError := by decide +kernel
  refine ⟨hraised, fun h => ?_⟩
  obtain ⟨code, hcode⟩ := h _ hraised
  exact nomatch hcode

theorem payload_refusals_surrogate :
    ¬ (Settled (validateCommandPayload surrogatePayload) ∧
      Settled (canonicalCommandBytes true
        { sampleEnvelope with payload := surrogatePayload }) ∧
      (validateCommandPayload surrogatePayload = .ok () →
        ∃ bytes', canonicalCommandBytes true
            { sampleEnvelope with payload := surrogatePayload } =
          .ok bytes')) := by
  intro h
  have hfits : Fits surrogatePayload := by
    refine ⟨rfl, ?_, by decide⟩
    exact Json.all_obj.mpr
      (List.forall_mem_cons.mpr ⟨⟨trivial, trivial⟩, nofun⟩)
  have hencodable := ((payload_refusals_kept_iff true sampleEnvelope sampleBytes
    canonicalCommandBytes_sample surrogatePayload).mp h hfits).1
  have hmember := Json.all_obj.mp hencodable _ List.mem_cons_self
  have hscalar : List.all [(⟨0xD800, by decide⟩ : CodePoint)] isScalar = true :=
    hmember.2
  exact absurd hscalar (by decide)

end NodeLink.Proofs.PayloadRefusals
