import NodeLink.Lib.Base64
import NodeLink.Lib.JsonUnique
import NodeLink.Server.Relays

/-!
# A relay's forward is accepted once

The fields a relay signs hold no newline, so they can be read back from the
bytes they were joined to: the method in the form it was upper-cased to, and
the body up to collisions of its digest. A forward is accepted only within
the clock skew of its signed timestamp, twice ten minutes at the most, and
its receipt refuses the nonce for at least a day: a pruning pass that removes
the receipt finds the forward long out of the window.
-/

namespace NodeLink.Proofs

open Lib Server

variable {upper : String → String} {sha256 : Bytes → String}
variable {b64decode : String → Option Bytes}
variable {verifySignature : String → Bytes → Bytes → Bool}

/-! ## The signed bytes -/

/-- What the signed bytes of a forward tell of it. -/
structure SameForward (upper : String → String) (sha256 : Bytes → String)
    (f g : SignedForward) : Prop where
  relayId : f.relayId = g.relayId
  keyId : f.keyId = g.keyId
  method : upper f.method = upper g.method
  path : f.path = g.path
  digest : sha256 f.body = sha256 g.body
  timestamp : f.timestamp = g.timestamp
  queuedAt : f.queuedAt = g.queuedAt
  nonce : f.nonce = g.nonce

theorem fields_of_canonical {f : SignedForward} {bytes : Bytes}
    (h : canonicalForwardBytes upper sha256 f = .ok bytes) :
    bytes = utf8 (['\n'].intercalate (f.fields upper sha256)) ∧
      ∀ field ∈ f.fields upper sha256, '\n' ∉ field := by
  rw [canonicalForwardBytes] at h
  split at h
  · cases h
  · next hfields =>
    refine ⟨(Except.ok.inj h).symm, fun field hfield hnew => hfields ?_⟩
    exact List.any_eq_true.mpr ⟨field, hfield, List.contains_iff_mem.mpr hnew⟩

theorem sameForward_of_canonical {f g : SignedForward} {bytes : Bytes}
    (hf : canonicalForwardBytes upper sha256 f = .ok bytes)
    (hg : canonicalForwardBytes upper sha256 g = .ok bytes) :
    SameForward upper sha256 f g := by
  obtain ⟨hfbytes, hfield⟩ := fields_of_canonical hf
  obtain ⟨hgbytes, hgfield⟩ := fields_of_canonical hg
  have htext := utf8_injective (hfbytes.symm.trans hgbytes)
  have hfields : f.fields upper sha256 = g.fields upper sha256 := by
    rw [← List.splitOn_intercalate '\n' hfield (by simp [SignedForward.fields]),
      htext, List.splitOn_intercalate '\n' hgfield (by simp [SignedForward.fields])]
  simp only [SignedForward.fields, List.cons.injEq, String.toList_inj,
    and_true, true_and] at hfields
  obtain ⟨hrelay, hkey, hmethod, hpath, hdigest, htime, hqueued, hnonce⟩ :=
    hfields
  exact ⟨hrelay, hkey, hmethod, hpath, hdigest, intDigits_injective htime,
    intDigits_injective hqueued, hnonce⟩

theorem canonical_of_sameForward {f g : SignedForward}
    (h : SameForward upper sha256 f g) :
    canonicalForwardBytes upper sha256 f = canonicalForwardBytes upper sha256 g := by
  have hfields : f.fields upper sha256 = g.fields upper sha256 := by
    simp [SignedForward.fields, h.relayId, h.keyId, h.method, h.path, h.digest,
      h.timestamp, h.queuedAt, h.nonce]
  rw [canonicalForwardBytes, canonicalForwardBytes, hfields]

/-! ## What an accepted forward is -/

/-- A forward that passed the checks at a clock reading. -/
structure Checked (upper : String → String) (sha256 : Bytes → String)
    (now : Int) (request : ForwardRequest) (relay : Relay) (f : SignedForward) :
    Prop where
  relayId : f.relayId = relay.id
  method : f.method = request.method
  path : f.path = request.path
  body : f.body = request.body
  post : f.method = "POST"
  fresh : (epochSeconds now - f.timestamp).natAbs ≤ 600
  bytes : ∃ bytes, canonicalForwardBytes upper sha256 f = .ok bytes

theorem canonical_of_signatureValid {key : RelayKey} {signatureText : String}
    {f : SignedForward}
    (h : signatureValid upper sha256 b64decode verifySignature key signatureText
      f = true) :
    ∃ bytes, canonicalForwardBytes upper sha256 f = .ok bytes := by
  rw [signatureValid] at h
  split at h
  · next signature message _ hmessage => exact ⟨message, hmessage⟩
  · cases h

theorem post_of_isRelayable {method path : String}
    (h : isRelayable method path = true) : method = "POST" := by
  rw [isRelayable, Bool.and_eq_true, beq_iff_eq] at h
  exact h.1

theorem checked_of_ok {s : RelaySettings} {tables : RelayTables} {now : Int}
    {request : ForwardRequest} {relay : Relay} {region : RelayRegion}
    {f : SignedForward}
    (h : checkForward upper sha256 b64decode verifySignature s tables now
      request = .ok (relay, region, f)) :
    Checked upper sha256 now request relay f := by
  simp only [checkForward, bind_eq_ok, require_eq_ok, exists_const] at h
  obtain ⟨-, -, -, -, timestamp, -, queuedAt, -, found, -, hroute, -, _, -, -,
    -, key, -, -, -, hsignature, hskew, -, -, hok⟩ := h
  cases hok
  have hbound := s.skewBounds.2
  have hfresh : (epochSeconds now - timestamp).natAbs ≤ 600 := by omega
  exact {
    relayId := rfl
    method := rfl
    path := rfl
    body := rfl
    post := post_of_isRelayable hroute
    fresh := hfresh
    bytes := canonical_of_signatureValid hsignature }

/-- An accepted forward was not on record, and is afterwards. -/
theorem verifyForward_ok {s : RelaySettings} {tables tables' : RelayTables}
    {now : Int} {receiptId : String} {request : ForwardRequest}
    {context : RelayContext} {relay : Relay} {region : RelayRegion}
    {f : SignedForward}
    (hcheck : checkForward upper sha256 b64decode verifySignature s tables now
      request = .ok (relay, region, f))
    (h : verifyForward upper sha256 b64decode verifySignature s tables now
      receiptId request = .ok (context, tables')) :
    (∀ receipt ∈ tables.receipts,
      ¬ (receipt.relayId = f.relayId ∧ receipt.nonce = f.nonce)) ∧
    ∃ receipt, tables'.receipts = receipt :: tables.receipts ∧
      receipt.relayId = f.relayId ∧ receipt.nonce = f.nonce ∧
        receipt.receivedAt = now := by
  have hrelay := (checked_of_ok hcheck).relayId
  rw [verifyForward, hcheck] at h
  obtain ⟨hnew, hok⟩ := require_bind_eq_ok.mp h
  cases hok
  refine ⟨fun receipt hmem hsame => hnew receipt hmem ⟨?_, hsame.2⟩, _, rfl,
    hrelay.symm, rfl, rfl⟩
  exact hsame.1.trans hrelay

/-! ## Runs -/

theorem epochSeconds_bounds (t : Int) :
    1000000 * epochSeconds t ≤ t + 999999 ∧
      t ≤ 1000000 * epochSeconds t + 999999 := by
  have hsum := Int.mul_tdiv_add_tmod t 1000000
  have hlt := Int.tmod_lt_of_pos t (b := 1000000) (by omega)
  have hgt := Int.lt_tmod_of_pos t (b := 1000000) (by omega)
  rw [epochSeconds]
  omega

theorem epochSeconds_mono {a b : Int} (h : a ≤ b) :
    epochSeconds a ≤ epochSeconds b := Int.tdiv_le_tdiv (by omega) h

/-- A receipt refuses the forward, or its window is over. -/
def ForwardSpent (w : RelayWorld) (f : SignedForward) : Prop :=
  (∃ receipt ∈ w.tables.receipts,
    receipt.relayId = f.relayId ∧ receipt.nonce = f.nonce ∧
      (epochSeconds receipt.receivedAt - f.timestamp).natAbs ≤ 600) ∨
    f.timestamp + 600 < epochSeconds w.clock

/-- What holds of the accepted forwards in every run. -/
structure ForwardsGuarded (upper : String → String) (sha256 : Bytes → String)
    (w : RelayWorld) : Prop where
  canonical : ∀ f ∈ w.accepted, f.method = "POST" ∧
    ∃ bytes, canonicalForwardBytes upper sha256 f = .ok bytes
  spent : ∀ f ∈ w.accepted, ForwardSpent w f
  once : (w.accepted.map (canonicalForwardBytes upper sha256)).Nodup

theorem ForwardsGuarded.tick {w : RelayWorld} (h : ForwardsGuarded upper sha256 w) {clock : Int}
    (hclock : w.clock ≤ clock) :
    ForwardsGuarded upper sha256 { w with clock := clock } := by
  refine ⟨h.canonical, fun f hf => ?_, h.once⟩
  obtain hreceipt | hover := h.spent f hf
  · exact .inl hreceipt
  · exact .inr (hover.trans_le (epochSeconds_mono hclock))

/-- A receipt that is pruned guards a forward that is out of its window. -/
theorem ForwardsGuarded.prune {w : RelayWorld} (h : ForwardsGuarded upper sha256 w)
    (s : RelaySettings) :
    ForwardsGuarded upper sha256 { w with tables := pruneReceipts s w.tables w.clock } := by
  refine ⟨h.canonical, fun f hf => ?_, h.once⟩
  obtain ⟨receipt, hmem, hrelay, hnonce, hnear⟩ | hover := h.spent f hf
  · by_cases hkept : w.clock - max 1 s.relayReceiptRetentionDays * receiptDay
        ≤ receipt.receivedAt
    · exact .inl ⟨receipt, List.mem_filter.mpr ⟨hmem, by simpa using hkept⟩,
        hrelay, hnonce, hnear⟩
    · have hreceived := epochSeconds_bounds receipt.receivedAt
      have hnow := epochSeconds_bounds w.clock
      have hover : f.timestamp + 600 < epochSeconds w.clock := by
        simp only [receiptDay] at hkept
        omega
      exact .inr hover
  · exact .inr hover

/-- A forward that is spent is not accepted again. -/
theorem ForwardsGuarded.forward {w : RelayWorld} (h : ForwardsGuarded upper sha256 w)
    {s : RelaySettings} {receiptId : String} {request : ForwardRequest}
    {context : RelayContext} {tables : RelayTables} {relay : Relay}
    {region : RelayRegion} {f : SignedForward}
    (hcheck : checkForward upper sha256 b64decode verifySignature s w.tables
      w.clock request = .ok (relay, region, f))
    (hok : verifyForward upper sha256 b64decode verifySignature s w.tables
      w.clock receiptId request = .ok (context, tables)) :
    ForwardsGuarded upper sha256
      { w with tables := tables, accepted := f :: w.accepted } := by
  have hf := checked_of_ok hcheck
  obtain ⟨hnew, receipt, hreceipts, hrelay, hnonce, hreceived⟩ :=
    verifyForward_ok hcheck hok
  refine ⟨?_, ?_, ?_⟩
  · intro g hg
    obtain rfl | hg := List.mem_cons.mp hg
    · exact ⟨hf.post, hf.bytes⟩
    · exact h.canonical g hg
  · intro g hg
    obtain rfl | hg := List.mem_cons.mp hg
    · refine .inl ⟨receipt, ?_, hrelay, hnonce, hreceived ▸ hf.fresh⟩
      rw [hreceipts]
      exact List.mem_cons_self
    · obtain ⟨old, hmem, hold⟩ | hover := h.spent g hg
      · refine .inl ⟨old, ?_, hold⟩
        rw [hreceipts]
        exact List.mem_cons_of_mem _ hmem
      · exact .inr hover
  · refine List.nodup_cons.mpr ⟨fun hmem => ?_, h.once⟩
    obtain ⟨g, hg, hsame⟩ := List.mem_map.mp hmem
    obtain ⟨bytes, hbytes⟩ := hf.bytes
    have hsame := sameForward_of_canonical (hsame.trans hbytes) hbytes
    obtain ⟨old, hold, holdrelay, holdnonce, -⟩ | hover := h.spent g hg
    · exact hnew old hold ⟨holdrelay.trans hsame.relayId,
        holdnonce.trans hsame.nonce⟩
    · have hfresh := hf.fresh
      have htime := hsame.timestamp
      omega

theorem ForwardsGuarded.step {w w' : RelayWorld} (h : ForwardsGuarded upper sha256 w)
    (hs : RelayStep upper sha256 b64decode verifySignature w w') :
    ForwardsGuarded upper sha256 w' := by
  cases hs with
  | tick hclock => exact h.tick hclock
  | administer => exact ⟨h.canonical, h.spent, h.once⟩
  | forward hcheck hok => exact h.forward hcheck hok
  | refuse => exact h
  | prune => exact h.prune _

theorem ForwardsGuarded.run {w w' : RelayWorld} (h : ForwardsGuarded upper sha256 w)
    (hr : RelayRun upper sha256 b64decode verifySignature w w') :
    ForwardsGuarded upper sha256 w' := by
  induction hr with
  | refl => exact h
  | tail _ hs ih => exact ih.step hs

/-- Relay forwards are single use. In every run no two accepted forwards have
the same signed bytes; the bytes tell every signed field, the method in upper
case and the body by its digest; and two forwards that pass the checks with
the same bytes are one forward, unless their bodies collide. -/
theorem relayForwards_single_use (upper : String → String)
    (sha256 : Bytes → String) (b64decode : String → Option Bytes)
    (verifySignature : String → Bytes → Bytes → Bool) :
    (∀ start w : RelayWorld, start.accepted = [] →
      RelayRun upper sha256 b64decode verifySignature start w →
        (w.accepted.map (canonicalForwardBytes upper sha256)).Nodup) ∧
    (∀ f g bytes, canonicalForwardBytes upper sha256 f = .ok bytes →
      canonicalForwardBytes upper sha256 g = .ok bytes →
        SameForward upper sha256 f g) ∧
    ∀ s s' tables tables' now now' request request' relay relay' region region'
      f g,
      checkForward upper sha256 b64decode verifySignature s tables now request
          = .ok (relay, region, f) →
        checkForward upper sha256 b64decode verifySignature s' tables' now'
            request' = .ok (relay', region', g) →
          canonicalForwardBytes upper sha256 f =
              canonicalForwardBytes upper sha256 g →
            (sha256 f.body = sha256 g.body → f.body = g.body) → f = g := by
  refine ⟨?_, fun f g bytes => sameForward_of_canonical, ?_⟩
  · intro start w hstart hrun
    have hguarded : ForwardsGuarded upper sha256 start := by
      refine ⟨?_, ?_, ?_⟩ <;> simp [hstart]
    exact (hguarded.run hrun).once
  · intro s s' tables tables' now now' request request' relay relay' region
      region' f g hcheckf hcheckg hsame hbody
    have hf := checked_of_ok hcheckf
    have hg := checked_of_ok hcheckg
    obtain ⟨bytes, hbytes⟩ := hf.bytes
    have h := sameForward_of_canonical hbytes (hsame.symm.trans hbytes)
    cases f
    cases g
    simp only [SignedForward.mk.injEq]
    exact ⟨h.relayId, h.keyId, hf.post.trans hg.post.symm, h.path,
      hbody h.digest, h.timestamp, h.queuedAt, h.nonce⟩

/-! ## Samples -/

/-- SHA-256 of the empty body. -/
def emptyDigest : Bytes → String := fun _ =>
  "e3b0c44298fc1c149afbf4c8996fb92427ae41e4649b934ca495991b7852b855"

def sampleForward : SignedForward where
  relayId := "11111111-1111-1111-1111-111111111111"
  keyId := "relay-key-1"
  method := "POST"
  path := "/api/v1/heartbeat"
  body := []
  timestamp := 1700000000
  queuedAt := 1700000000
  nonce := "AAAAAAAAAAAAAAAAAAAAAA"

/-- `str.upper` on ASCII texts. -/
def asciiUpper (s : String) : String :=
  String.ofList (s.toList.map Char.toUpper)

theorem canonical_sampleForward :
    canonicalForwardBytes asciiUpper emptyDigest sampleForward
      = .ok (utf8 (['\n'].intercalate
          (sampleForward.fields asciiUpper emptyDigest))) := by
  have hfields : (sampleForward.fields asciiUpper emptyDigest).any
      (·.contains '\n') = false := by
    decide +kernel
  rw [canonicalForwardBytes, hfields, if_neg Bool.false_ne_true]

/-- Methods that differ in their case are signed alike. -/
theorem canonicalForwardBytes_case :
    ¬ ∀ f g bytes, canonicalForwardBytes asciiUpper emptyDigest f = .ok bytes →
      canonicalForwardBytes asciiUpper emptyDigest g = .ok bytes → f = g := by
  intro h
  have hupper : asciiUpper "post" = asciiUpper "POST" := by decide +kernel
  have hsame : SameForward asciiUpper emptyDigest
      { sampleForward with method := "post" } sampleForward :=
    ⟨rfl, rfl, hupper, rfl, rfl, rfl, rfl, rfl⟩
  have hpost := h _ _ _
    ((canonical_of_sameForward hsame).trans canonical_sampleForward)
    canonical_sampleForward
  have hmethod : "post" = "POST" := congrArg SignedForward.method hpost
  exact absurd hmethod (by decide +kernel)

def sampleTables : RelayTables where
  relays := [⟨"11111111-1111-1111-1111-111111111111", "region-1", .active, none⟩]
  regions := [⟨"region-1", "eu-west", .active⟩]
  keys := [⟨"relay-key-1", "11111111-1111-1111-1111-111111111111", .active,
    1800000000000000, "relay-key-1.pem"⟩]

def sampleRequest : ForwardRequest where
  method := "POST"
  path := "/api/v1/heartbeat"
  headers := [(headerRelayId, "11111111-1111-1111-1111-111111111111"),
    (headerKeyId, "relay-key-1"), (headerTimestamp, "1700000000"),
    (headerQueuedAt, "1700000000"), (headerNonce, "AAAAAAAAAAAAAAAAAAAAAA"),
    (headerSignature, "c2lnbmVk")]
  body := []

def secondForward : SignedForward :=
  { sampleForward with nonce := "BBBBBBBBBBBBBBBBBBBBBB" }

def secondRequest : ForwardRequest :=
  { sampleRequest with headers :=
      [(headerRelayId, "11111111-1111-1111-1111-111111111111"),
        (headerKeyId, "relay-key-1"), (headerTimestamp, "1700000000"),
        (headerQueuedAt, "1700000000"), (headerNonce, "BBBBBBBBBBBBBBBBBBBBBB"),
        (headerSignature, "c2lnbmVk")] }

/-- Signatures verify for the bytes of the two forwards only. -/
def verifiesSample (_pem : String) (_signature message : Bytes) : Bool :=
  [sampleForward, secondForward].any fun f =>
    message = utf8 (['\n'].intercalate (f.fields asciiUpper emptyDigest))

def relaySampleStart : RelayWorld := ⟨sampleTables, 1700000001000000, []⟩

def sampleSettings : RelaySettings := { relayRoutingEnabled := true }

/-- A second after the first forward, and the day its receipt is pruned. -/
def secondClock : Int := 1700000002000000

def pruningClock : Int := 1700000002000001 + 8 * receiptDay

def seenRelay (now : Int) : Relay :=
  ⟨"11111111-1111-1111-1111-111111111111", "region-1", .active, some now⟩

def sampleRegion : RelayRegion := ⟨"region-1", "eu-west", .active⟩

def sampleContext (receiptId : String) : RelayContext :=
  ⟨"11111111-1111-1111-1111-111111111111", "region-1", "eu-west", "relay-key-1",
    receiptId, 1700000000000000⟩

def sampleReceipt (id nonce : String) (receivedAt : Int) : RelayForwardReceipt :=
  ⟨id, "11111111-1111-1111-1111-111111111111", "relay-key-1", nonce, "POST",
    "/api/v1/heartbeat", 1700000000000000, receivedAt⟩

/-- The tables after the first request, and after the second. -/
def sampleReceived : RelayTables :=
  { sampleTables with
    relays := [seenRelay 1700000001000000]
    receipts := [sampleReceipt "receipt-1" "AAAAAAAAAAAAAAAAAAAAAA"
      1700000001000000] }

def secondReceived : RelayTables :=
  { sampleTables with
    relays := [seenRelay secondClock]
    receipts := sampleReceipt "receipt-2" "BBBBBBBBBBBBBBBBBBBBBB" secondClock ::
      sampleReceived.receipts }

/-- What the two requests come to, and the first one again before and after the
receipts are pruned. -/
theorem sampleRequests_answered :
    let check := checkForward asciiUpper emptyDigest decodeBase64 verifiesSample
      sampleSettings
    let verify := verifyForward asciiUpper emptyDigest decodeBase64 verifiesSample
      sampleSettings
    ((check sampleTables 1700000001000000 sampleRequest).toOption =
        some (⟨"11111111-1111-1111-1111-111111111111", "region-1", .active, none⟩,
          sampleRegion, sampleForward) ∧
      (verify sampleTables 1700000001000000 "receipt-1" sampleRequest).toOption =
        some (sampleContext "receipt-1", sampleReceived)) ∧
    ((check sampleReceived secondClock secondRequest).toOption =
        some (seenRelay 1700000001000000, sampleRegion, secondForward) ∧
      (verify sampleReceived secondClock "receipt-2" secondRequest).toOption =
        some (sampleContext "receipt-2", secondReceived)) ∧
    (verify secondReceived secondClock "receipt-3" sampleRequest).toOption =
      none ∧
    (verify (pruneReceipts sampleSettings secondReceived pruningClock)
      pruningClock "receipt-3" sampleRequest).toOption = none := by
  decide +kernel

/-- Two forwards are accepted, and the first is refused when it is sent again,
also when its receipt is gone. -/
theorem relayForwards_single_use_replayed :
    ∃ w, RelayRun asciiUpper emptyDigest decodeBase64 verifiesSample
        relaySampleStart w ∧
      w.accepted = [secondForward, sampleForward] ∧ w.tables.receipts = [] ∧
      (w.accepted.map (canonicalForwardBytes asciiUpper emptyDigest)).Nodup ∧
        (verifyForward asciiUpper emptyDigest decodeBase64 verifiesSample
          sampleSettings w.tables w.clock "receipt-3" sampleRequest).toOption
            = none := by
  obtain ⟨⟨hcheck, hforward⟩, ⟨hcheck', hforward'⟩, hagain, hgone⟩ :=
    sampleRequests_answered
  have hfirst : RelayRun asciiUpper emptyDigest decodeBase64 verifiesSample
      relaySampleStart { relaySampleStart with
        tables := sampleReceived, accepted := [sampleForward] } :=
    .single (.forward (eq_ok_of_toOption hcheck) (eq_ok_of_toOption hforward))
  have hlater := hfirst.tail (.tick (show 1700000001000000 ≤ secondClock by decide))
  have hsecond : RelayRun asciiUpper emptyDigest decodeBase64 verifiesSample
      relaySampleStart
        ⟨secondReceived, secondClock, [secondForward, sampleForward]⟩ :=
    hlater.tail (.forward (eq_ok_of_toOption hcheck')
      (eq_ok_of_toOption hforward'))
  obtain ⟨refusal, hrefusal⟩ : ∃ refusal, verifyForward asciiUpper emptyDigest
      decodeBase64 verifiesSample sampleSettings secondReceived secondClock
      "receipt-3" sampleRequest = .error refusal := by
    cases hanswer : verifyForward asciiUpper emptyDigest decodeBase64
      verifiesSample sampleSettings secondReceived secondClock "receipt-3"
      sampleRequest with
    | error refusal => exact ⟨refusal, rfl⟩
    | ok answer =>
        rw [hanswer] at hagain
        cases hagain
  have hrefused := hsecond.tail (.refuse hrefusal)
  have hweek := hrefused.tail (.tick (show secondClock ≤ pruningClock by decide))
  have hrun : RelayRun asciiUpper emptyDigest decodeBase64 verifiesSample
      relaySampleStart ⟨pruneReceipts sampleSettings secondReceived pruningClock,
        pruningClock, [secondForward, sampleForward]⟩ :=
    hweek.tail (.prune (s := sampleSettings))
  exact ⟨_, hrun, rfl, rfl, (relayForwards_single_use asciiUpper emptyDigest
    decodeBase64 verifiesSample).1 relaySampleStart _ rfl hrun, hgone⟩

end NodeLink.Proofs
