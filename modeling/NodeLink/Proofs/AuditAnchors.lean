import NodeLink.Proofs.AuditCommitment
import NodeLink.Server.Anchor

/-!
# Anchors pin the prefix they cover

A Merkle root over digests determines them, for a given number of them. The
prefix an anchor covers stays where it is while events are appended, so the
anchor goes on verifying. And a verified table the anchor verifies on has the
event hashes of the anchored one in front, each the hash of the event's
document, which they therefore determine too.
-/

namespace NodeLink.Proofs

open Lib Server

/-! ## Roots over digests -/

/-- 64 lower-case hexadecimal characters. -/
structure IsDigest (s : String) : Prop where
  length : s.toList.length = 64
  lower : ∀ c ∈ s.toList, c ∈ lowerHexDigits

section Roots

variable {sha256 : Bytes → Bytes}

/-- What is hashed to make the root. -/
def treeInputs (sha256 : Bytes → Bytes) (leafHashes : List String) : List Bytes :=
  match leafHashes.mapM fromHex with
  | none => []
  | some level =>
    (merklePairs (hashPair sha256) level).map fun p => p.1 ++ p.2

/-- No two of the inputs have one hash. -/
def CollisionFree (sha256 : Bytes → Bytes) (inputs : List Bytes) : Prop :=
  ∀ a ∈ inputs, ∀ b ∈ inputs, sha256 a = sha256 b → a = b

theorem CollisionFree.mono {inputs inputs' : List Bytes}
    (h : CollisionFree sha256 inputs) (hsub : ∀ a ∈ inputs', a ∈ inputs) :
    CollisionFree sha256 inputs' :=
  fun a ha b hb => h a (hsub a ha) b (hsub b hb)

/-- Digests read as strings of 32 bytes, which they are the digits of. -/
theorem mapM_fromHex {hashes : List String} (h : ∀ s ∈ hashes, IsDigest s) :
    ∃ level, hashes.mapM fromHex = some level ∧
      (∀ node ∈ level, node.length = 32) ∧ level.map toHex = hashes := by
  induction hashes with
  | nil => exact ⟨[], rfl, nofun, rfl⟩
  | cons s hashes ih =>
      have hs := h s List.mem_cons_self
      obtain ⟨node, hread, hlen, hwrite⟩ := @readHex_lower s.toList hs.lower 32
        hs.length
      obtain ⟨level, hlevel, hnodes, hmap⟩ := ih fun t ht =>
        h t (List.mem_cons_of_mem _ ht)
      refine ⟨node :: level, ?_, ?_, ?_⟩
      · rw [List.mapM_cons, hlevel, show fromHex s = some node from hread]
        rfl
      · intro x hx
        rcases List.mem_cons.mp hx with rfl | hx
        · exact hlen
        · exact hnodes x hx
      · rw [List.map_cons, hmap, toHex, hwrite, String.ofList_toList]

theorem length_of_mapM {hashes : List String} {level : List Bytes}
    (hmap : level.map toHex = hashes) : level.length = hashes.length := by
  rw [← hmap, List.length_map]

/-- Nodes of 32 bytes whose concatenations do not collide are told apart. -/
theorem separates_of_collisionFree (hsize : ∀ data, (sha256 data).length = 32)
    {l m : List Bytes} (hl : ∀ node ∈ l, node.length = 32)
    (hm : ∀ node ∈ m, node.length = 32)
    (hfree : CollisionFree sha256
      ((merklePairs (hashPair sha256) l).map (fun p => p.1 ++ p.2) ++
        (merklePairs (hashPair sha256) m).map (fun p => p.1 ++ p.2))) :
    Separates (hashPair sha256) (merklePairs (hashPair sha256) l)
      (merklePairs (hashPair sha256) m) := by
  intro p hp q hq hpq
  have hconcat : p.1 ++ p.2 = q.1 ++ q.2 :=
    hfree _ (List.mem_append_left _ (List.mem_map_of_mem hp))
      _ (List.mem_append_right _ (List.mem_map_of_mem hq)) hpq
  have hp32 := forall_pairsAbove (P := fun node => node.length = 32)
    (fun x y => hsize (x ++ y)) hl p hp
  have hq32 := forall_pairsAbove (P := fun node => node.length = 32)
    (fun x y => hsize (x ++ y)) hm q hq
  obtain ⟨hfst, hsnd⟩ := List.append_inj hconcat (by rw [hp32.1, hq32.1])
  exact Prod.ext hfst hsnd

/-- Equally many digests with one root are the same digests. -/
theorem merkleRoot_agree (hsize : ∀ data, (sha256 data).length = 32)
    {l m : List String} (hl : ∀ s ∈ l, IsDigest s) (hm : ∀ s ∈ m, IsDigest s)
    (hlen : l.length = m.length)
    (hfree : CollisionFree sha256 (treeInputs sha256 l ++ treeInputs sha256 m))
    (h : merkleRoot sha256 l = merkleRoot sha256 m) : l = m := by
  obtain ⟨ls, hls, hls32, hlmap⟩ := mapM_fromHex hl
  obtain ⟨ms, hms, hms32, hmmap⟩ := mapM_fromHex hm
  have hlens : ls.length = ms.length := by
    rw [length_of_mapM hlmap, length_of_mapM hmmap, hlen]
  rw [treeInputs, treeInputs, hls, hms] at hfree
  have htop : merkleTop (hashPair sha256) ls = merkleTop (hashPair sha256) ms := by
    simp only [merkleRoot, hls, hms] at h
    cases hlt : merkleTop (hashPair sha256) ls with
    | none =>
        cases hmt : merkleTop (hashPair sha256) ms with
        | none => rfl
        | some y => simp [hlt, hmt] at h
    | some x =>
        cases hmt : merkleTop (hashPair sha256) ms with
        | none => simp [hlt, hmt] at h
        | some y =>
            simp only [hlt, hmt] at h
            rw [toHex_injective (Except.ok.inj h)]
  rw [← hlmap, ← hmmap, merkleTop_injective hlens
    (separates_of_collisionFree hsize hls32 hms32 hfree) htop]

end Roots

/-! ## Prefixes of verified tables -/

section Prefixes

variable {sha256Hex : Bytes → String}

theorem Verifies.take {es : List AuditEvent} {prev : String} {n : Int}
    {seen : Bool} (h : Verifies sha256Hex es prev n seen) (k : Nat) :
    Verifies sha256Hex (es.take k) prev n seen := by
  induction es generalizing prev n seen k with
  | nil => rwa [List.take_nil]
  | cons e es ih =>
      cases k with
      | zero => exact ⟨trivial, trivial, trivial⟩
      | succ k =>
          obtain ⟨hhead, htail⟩ := verifies_cons.mp h
          rw [List.take_succ_cons]
          exact verifies_cons.mpr ⟨hhead, ih htail k⟩

/-- A numbered list of rows of another one is the front of it. -/
theorem Numbered.eq_take {n : Int} {es fs : List AuditEvent}
    (he : Numbered n es) (hf : Numbered n fs) (hsub : ∀ f ∈ fs, f ∈ es) :
    fs = es.take fs.length := by
  induction fs generalizing n es with
  | nil => rfl
  | cons f fs ih =>
      have hfmem := hsub f List.mem_cons_self
      match es, he, hfmem with
      | e :: es, he, hfmem =>
          have hfe : f = e := he.eq_of_seq hfmem List.mem_cons_self
            (hf.1.trans he.1.symm)
          subst hfe
          have hrest : ∀ g ∈ fs, g ∈ es := by
            intro g hg
            obtain ⟨i, hi, hni, -⟩ := hf.2.bounds hg
            refine (List.mem_cons.mp (hsub g (List.mem_cons_of_mem _ hg))).resolve_left ?_
            rintro rfl
            rw [hf.1] at hi
            have := Option.some.inj hi
            omega
          rw [List.length_cons, List.take_succ_cons, ← ih he.2 hf.2 hrest]

/-- The event hashes of a chain are digests. -/
theorem Linked.isDigest {sha256 : Bytes → Bytes}
    (hsize : ∀ data, (sha256 data).length = 32) {prev : String}
    {es : List AuditEvent}
    (h : Linked AuditEvent.prevHash AuditEvent.eventHash
      (hashEvent (hexdigest sha256)) prev es) :
    ∀ s ∈ es.map AuditEvent.eventHash, IsDigest s := by
  induction es generalizing prev with
  | nil => nofun
  | cons e es ih =>
      intro s hs
      rcases List.mem_cons.mp hs with rfl | hs
      · rw [h.2.1]
        refine ⟨?_, fun c hc => ?_⟩
        · rw [hashEvent, hexdigest, length_toHex, hsize]
        · rw [hashEvent, hexdigest, toHex, String.toList_ofList] at hc
          obtain ⟨b, -, hb⟩ := List.mem_flatMap.mp hc
          have hlt : b.toNat < 256 := b.toNat_lt
          simp only [hexPair, List.mem_cons, List.not_mem_nil, or_false] at hb
          rcases hb with rfl | rfl
          · exact digitChar_lower _ (by omega)
          · exact digitChar_lower _ (by omega)
      · exact ih h.2.2 s hs

/-- Chains with the same hashes, event by event, have documents of the same
digest. -/
theorem Linked.same_hashes {R : AuditEvent → AuditEvent → Prop}
    {digest : AuditEvent → String} {p q : String} {as bs : List AuditEvent}
    (ha : Linked AuditEvent.prevHash AuditEvent.eventHash digest p as)
    (hb : Linked AuditEvent.prevHash AuditEvent.eventHash digest q bs)
    (h : as.map AuditEvent.eventHash = bs.map AuditEvent.eventHash)
    (hbind : ∀ a ∈ as, ∀ b ∈ bs, digest a = digest b → R a b) :
    List.Forall₂ R as bs := by
  induction as generalizing bs p q with
  | nil =>
      cases bs with
      | nil => exact .nil
      | cons b bs => cases h
  | cons a as ih =>
      cases bs with
      | nil => cases h
      | cons b bs =>
          rw [List.map_cons, List.map_cons, List.cons.injEq] at h
          refine .cons (hbind a List.mem_cons_self b List.mem_cons_self ?_)
            (ih ha.2.2 hb.2.2 h.2 fun x hx y hy =>
              hbind x (List.mem_cons_of_mem _ hx) y (List.mem_cons_of_mem _ hy))
          rw [← ha.2.1, ← hb.2.1, h.1]

theorem Numbered.forall₂ {R : AuditEvent → AuditEvent → Prop} {n : Int}
    {as bs : List AuditEvent} (ha : Numbered n as) (hb : Numbered n bs)
    (h : List.Forall₂ R as bs) :
    List.Forall₂ (fun a b => R a b ∧ a.seq = b.seq) as bs := by
  induction h generalizing n with
  | nil => exact .nil
  | cons hab _ ih => exact .cons ⟨hab, ha.1.trans hb.1.symm⟩ (ih ha.2 hb.2)

end Prefixes

/-! ## Documents of either schema -/

/-- Two rows with the same hashed fields, but perhaps for their numbers. -/
structure SameContent (a b : AuditEvent) : Prop where
  prevHash : a.prevHash = b.prevHash
  tsIso : a.tsIso = b.tsIso
  actor : a.actor = b.actor
  action : a.action = b.action
  agentID : a.agentID = b.agentID
  detail : SameValue a.detail b.detail

/-- The members every hashed document has. -/
def contentMembers (e : AuditEvent) : List (String × StoredJson) :=
  [("prev_hash", .str e.prevHash), ("ts", .str e.tsIso), ("actor", .str e.actor),
    ("action", .str e.action), ("agent_id", jsonString e.agentID),
    ("detail", e.detail)]

theorem content_of_document {e : AuditEvent} {ms : List (String × StoredJson)}
    (h : e.document = .obj ms) {k : String} {v : StoredJson} (hmem : (k, v) ∈ ms)
    (hk : k ≠ "seq") : (k, v) ∈ contentMembers e := by
  rw [AuditEvent.document, Json.obj.injEq] at h
  rw [← h] at hmem
  rcases List.mem_append.mp hmem with hcontent | hseq
  · exact hcontent
  · split at hseq
    · exact absurd (Prod.mk.inj (List.mem_singleton.mp hseq)).1 hk
    · cases hseq

/-- The hashed bytes of a row determine what is hashed. -/
theorem sameContent_of_blob {a b : AuditEvent} (h : a.blob = b.blob) :
    SameContent a b := by
  have hdoc : SameValue a.document b.document :=
    dumpsSorted_eq_iff.mp (utf8_injective h)
  have hfield : ∀ {k : String} {v w : StoredJson}, (k, v) ∈ contentMembers a →
      k ≠ "seq" → (∀ x, (k, x) ∈ contentMembers b → x = w) → SameValue v w := by
    intro k v w hv hk hw
    obtain ⟨x, hx, hvx⟩ := SameValue.member hdoc (List.mem_append_left _ hv)
    exact hw x (content_of_document rfl hx hk) ▸ hvx
  have hprev := @hfield "prev_hash" (.str a.prevHash) (.str b.prevHash)
    (by simp [contentMembers]) (by decide) (by simp [contentMembers])
  have hts := @hfield "ts" (.str a.tsIso) (.str b.tsIso)
    (by simp [contentMembers]) (by decide) (by simp [contentMembers])
  have hactor := @hfield "actor" (.str a.actor) (.str b.actor)
    (by simp [contentMembers]) (by decide) (by simp [contentMembers])
  have haction := @hfield "action" (.str a.action) (.str b.action)
    (by simp [contentMembers]) (by decide) (by simp [contentMembers])
  have hagent := @hfield "agent_id" (jsonString a.agentID) (jsonString b.agentID)
    (by simp [contentMembers]) (by decide) (by simp [contentMembers])
  have hdetail := @hfield "detail" a.detail b.detail
    (by simp [contentMembers]) (by decide) (by simp [contentMembers])
  exact ⟨str_of_sameValue hprev, str_of_sameValue hts, str_of_sameValue hactor,
    str_of_sameValue haction, eq_of_jsonString hagent, hdetail⟩

/-! ## Anchors -/

section Anchors

variable {sha256 : Bytes → Bytes} {isoformat : Int → String}

/-- What an anchor that was created says. -/
theorem createAnchor_eq_ok {table : List AuditEvent} {anchor : AuditAnchor}
    (h : createAnchor sha256 table = .ok (some anchor)) :
    ∃ last, (table.insertionSort seqLe).getLast? = some last ∧
      anchor.eventCount = (table.insertionSort seqLe).length ∧
      anchor.lastEventID = last.id ∧
      merkleRoot sha256 ((table.insertionSort seqLe).map AuditEvent.eventHash) =
        .ok anchor.merkleRoot := by
  simp only [createAnchor, coveredEvents] at h
  split at h
  · cases h
  · next last hlast =>
      split at h
      · cases h
      · next root hroot =>
          obtain rfl := Option.some.inj (Except.ok.inj h)
          exact ⟨last, hlast, rfl, rfl, hroot⟩

/-- What an anchor that verifies says. -/
theorem verifyAnchor_eq_true {table : List AuditEvent} {anchor : AuditAnchor}
    (h : verifyAnchor sha256 table anchor = .ok (true, none)) :
    ((table.insertionSort seqLe).take anchor.eventCount).length =
        anchor.eventCount ∧
      merkleRoot sha256 (((table.insertionSort seqLe).take
        anchor.eventCount).map AuditEvent.eventHash) = .ok anchor.merkleRoot := by
  rw [verifyAnchor] at h
  by_cases hshort : (coveredEvents (some anchor.eventCount) table).length <
      anchor.eventCount
  · rw [if_pos hshort] at h
    cases h
  rw [if_neg hshort] at h
  refine ⟨le_antisymm (List.length_take_le ..) (not_lt.mp hshort), ?_⟩
  cases hlast : (coveredEvents (some anchor.eventCount) table).getLast? with
  | none =>
      rw [hlast] at h
      cases h
  | some last =>
      simp only [hlast] at h
      split at h
      · cases h
      · split at h
        · cases h
        · next root hroot =>
            split at h
            · cases h
            · next hsame => rw [← not_not.mp hsame, ← hroot]; rfl

/-- Rows are never taken back. -/
theorem auditRun_extends {entries : AuditEntry → Prop}
    {base : List AuditEvent} {db : AuditDB}
    (hr : AuditRun (hexdigest sha256) isoformat entries { committed := base } db) :
    ∃ more, db.committed = more ++ base := by
  refine @invariant_of_steps _ _ (fun db => ∃ more, db.committed = more ++ base)
    (fun db db' ⟨more, hmore⟩ hs => ?_) _ _ ⟨[], rfl⟩ hr
  cases hs with
  | lock => exact ⟨more, hmore⟩
  | readTail => exact ⟨more, hmore⟩
  | flush => exact ⟨more, hmore⟩
  | @commit t =>
      refine ⟨(db.txns t).pending ++ more, ?_⟩
      show db.visible t = _
      rw [AuditDB.visible, hmore, List.append_assoc]
  | rollback => exact ⟨more, hmore⟩

/-- Appending leaves the covered prefix as it is. -/
theorem auditRun_covered {entries : AuditEntry → Prop}
    {base : List AuditEvent} {db : AuditDB}
    (hbase : (verifyChain (hexdigest sha256) base none).1 = true)
    (hr : AuditRun (hexdigest sha256) isoformat entries { committed := base } db) :
    (db.committed.insertionSort seqLe).take (base.insertionSort seqLe).length =
      base.insertionSort seqLe := by
  obtain ⟨more, hmore⟩ := auditRun_extends hr
  have hser : Serialized (hexdigest sha256) db :=
    @invariant_of_steps _ _ (Serialized (hexdigest sha256))
      (fun _ _ h hs => serialized_step h hs) _ _
      (serialized_start (sound_iff.mpr hbase)) hr
  refine (hser.base.numbered.eq_take (sound_iff.mpr hbase).numbered ?_).symm
  intro e he
  rw [List.mem_insertionSort] at he ⊢
  rw [hmore]
  exact List.mem_append_right _ he

/-- Where the covered rows, the last one and the root are the anchor's, it
verifies. -/
theorem verifyAnchor_ok {table : List AuditEvent} {anchor : AuditAnchor}
    {last : AuditEvent}
    (hlen : (coveredEvents (some anchor.eventCount) table).length =
      anchor.eventCount)
    (hlast : (coveredEvents (some anchor.eventCount) table).getLast? = some last)
    (hid : last.id = anchor.lastEventID)
    (hroot : merkleRoot sha256 ((coveredEvents (some anchor.eventCount)
      table).map AuditEvent.eventHash) = .ok anchor.merkleRoot) :
    verifyAnchor sha256 table anchor = .ok (true, none) := by
  rw [verifyAnchor, if_neg (by rw [hlen]; exact lt_irrefl _)]
  simp only [hlast, hid, hroot, ne_eq, not_true_eq_false, if_false]

theorem verifyAnchor_after {entries : AuditEntry → Prop}
    {base : List AuditEvent} {anchor : AuditAnchor} {db : AuditDB}
    (hbase : (verifyChain (hexdigest sha256) base none).1 = true)
    (hanchor : createAnchor sha256 base = .ok (some anchor))
    (hr : AuditRun (hexdigest sha256) isoformat entries { committed := base } db) :
    verifyAnchor sha256 db.committed anchor = .ok (true, none) := by
  obtain ⟨last, hlast, hcount, hid, hroot⟩ := createAnchor_eq_ok hanchor
  have hcovered : coveredEvents (some anchor.eventCount) db.committed =
      base.insertionSort seqLe := by
    rw [coveredEvents, hcount]
    exact auditRun_covered hbase hr
  refine @verifyAnchor_ok _ _ _ last ?_ ?_ hid.symm ?_
  · rw [hcovered, hcount]
  · rw [hcovered, hlast]
  · rw [hcovered, hroot]

/-- What is hashed to check a chain and its anchor. -/
def anchorInputs (sha256 : Bytes → Bytes) (events : List AuditEvent) :
    List Bytes :=
  treeInputs sha256 (events.map AuditEvent.eventHash) ++
    events.map AuditEvent.blob

/-- The events under an anchor are those it was made over. -/
theorem covered_agree (hsize : ∀ data, (sha256 data).length = 32)
    {base table : List AuditEvent} {anchor : AuditAnchor}
    (hbase : (verifyChain (hexdigest sha256) base none).1 = true)
    (hanchor : createAnchor sha256 base = .ok (some anchor))
    (htable : (verifyChain (hexdigest sha256) table none).1 = true)
    (hverify : verifyAnchor sha256 table anchor = .ok (true, none))
    (hfree : CollisionFree sha256
      (anchorInputs sha256 (coveredEvents none base) ++
        anchorInputs sha256 (coveredEvents (some anchor.eventCount) table))) :
    List.Forall₂ (fun a b => SameContent a b ∧ a.seq = b.seq)
      (coveredEvents none base) (coveredEvents (some anchor.eventCount) table) := by
  obtain ⟨-, -, hcount, -, hroot⟩ := createAnchor_eq_ok hanchor
  obtain ⟨hlen, hroot'⟩ := verifyAnchor_eq_true hverify
  have hold : Verifies (hexdigest sha256) (base.insertionSort seqLe) genesis 1
      false := sound_iff.mpr hbase
  have hnew : Verifies (hexdigest sha256)
      ((table.insertionSort seqLe).take anchor.eventCount) genesis 1 false :=
    (sound_iff.mpr htable).take anchor.eventCount
  have hhashes : (base.insertionSort seqLe).map AuditEvent.eventHash =
      ((table.insertionSort seqLe).take anchor.eventCount).map
        AuditEvent.eventHash := by
    refine merkleRoot_agree hsize (Linked.isDigest hsize hold.linked)
      (Linked.isDigest hsize hnew.linked) ?_ (hfree.mono ?_)
      (hroot.trans hroot'.symm)
    · rw [List.length_map, List.length_map, hlen, hcount]
    · intro input hinput
      rcases List.mem_append.mp hinput with hinput | hinput
      · exact List.mem_append_left _ (List.mem_append_left _ hinput)
      · exact List.mem_append_right _ (List.mem_append_left _ hinput)
  refine hold.numbered.forall₂ hnew.numbered
    (Linked.same_hashes hold.linked hnew.linked hhashes ?_)
  intro a ha b hb hab
  refine sameContent_of_blob (hfree _ ?_ _ ?_ (toHex_injective hab))
  · exact List.mem_append_left _ (List.mem_append_right _
      (List.mem_map_of_mem ha))
  · exact List.mem_append_right _ (List.mem_append_right _
      (List.mem_map_of_mem hb))

/-- Roots bind the digests under them, an anchor verifies however the chain it
was made on grows, and whatever verifies under it starts with the anchored
events. -/
theorem anchors_pin_prefix (hsize : ∀ data, (sha256 data).length = 32) :
    (∀ l m : List String, (∀ s ∈ l, IsDigest s) → (∀ s ∈ m, IsDigest s) →
      l.length = m.length →
      CollisionFree sha256 (treeInputs sha256 l ++ treeInputs sha256 m) →
      merkleRoot sha256 l = merkleRoot sha256 m → l = m) ∧
    (∀ (entries : AuditEntry → Prop) (base : List AuditEvent)
      (anchor : AuditAnchor) (db : AuditDB),
      (verifyChain (hexdigest sha256) base none).1 = true →
      createAnchor sha256 base = .ok (some anchor) →
      AuditRun (hexdigest sha256) isoformat entries { committed := base } db →
      verifyAnchor sha256 db.committed anchor = .ok (true, none)) ∧
    (∀ (base : List AuditEvent) (anchor : AuditAnchor) (table : List AuditEvent),
      (verifyChain (hexdigest sha256) base none).1 = true →
      createAnchor sha256 base = .ok (some anchor) →
      (verifyChain (hexdigest sha256) table none).1 = true →
      verifyAnchor sha256 table anchor = .ok (true, none) →
      CollisionFree sha256 (anchorInputs sha256 (coveredEvents none base) ++
        anchorInputs sha256 (coveredEvents (some anchor.eventCount) table)) →
      List.Forall₂ (fun a b => SameContent a b ∧ a.seq = b.seq)
        (coveredEvents none base)
        (coveredEvents (some anchor.eventCount) table)) :=
  ⟨fun _ _ hl hm hlen hfree h => merkleRoot_agree hsize hl hm hlen hfree h,
    fun _ _ _ _ hbase hanchor hr => verifyAnchor_after hbase hanchor hr,
    fun _ _ _ hbase hanchor htable hverify hfree =>
      covered_agree hsize hbase hanchor htable hverify hfree⟩

/-- The nodes above three leaves: a pair, and the pair's with the one left
over. -/
theorem leaves_recorded :
    treeInputs recordedSha256
        [toHex firstDigest, toHex secondDigest, toHex thirdDigest] =
      [firstDigest ++ secondDigest, nodeDigest ++ thirdDigest] ∧
    merkleRoot recordedSha256
        [toHex firstDigest, toHex secondDigest, toHex thirdDigest] =
      .ok (toHex rootDigest) := by
  have hlevel : [toHex firstDigest, toHex secondDigest, toHex thirdDigest].mapM
      fromHex = some [firstDigest, secondDigest, thirdDigest] := by
    simp only [List.mapM_cons, List.mapM_nil, fromHex_toHex]
    rfl
  have hnode : hashPair recordedSha256 firstDigest secondDigest = nodeDigest :=
    recordedSha256_get 6
  have hroot : hashPair recordedSha256 nodeDigest thirdDigest = rootDigest :=
    recordedSha256_get 7
  constructor
  · rw [treeInputs, hlevel]
    show [firstDigest ++ secondDigest,
      hashPair recordedSha256 firstDigest secondDigest ++ thirdDigest] = _
    rw [hnode]
  · have htop : merkleTop (hashPair recordedSha256)
        [firstDigest, secondDigest, thirdDigest] = some rootDigest := by
      show some (hashPair recordedSha256
        (hashPair recordedSha256 firstDigest secondDigest) thirdDigest) = _
      rw [hnode, hroot]
    simp only [merkleRoot, hlevel, htop]

/-- The rows under an anchor over three revocations. -/
def coveredRevocations (organization : Option String) : List AuditEvent :=
  [refiled organization firstRow, refiled organization secondRow,
    refiled organization thirdRow]

theorem anchorInputs_recorded (organization : Option String) :
    ∀ input ∈ anchorInputs recordedSha256 (coveredRevocations organization),
      input ∈ recordedDigests.map Prod.fst := by
  intro input hinput
  rcases List.mem_append.mp hinput with hinput | hinput
  · have hnodes := leaves_recorded.1
    rw [show (coveredRevocations organization).map AuditEvent.eventHash =
      [toHex firstDigest, toHex secondDigest, toHex thirdDigest] from rfl,
      hnodes] at hinput
    have hrecorded : [firstDigest ++ secondDigest, nodeDigest ++ thirdDigest] =
        (recordedDigests.map Prod.fst).drop 6 := rfl
    rw [hrecorded] at hinput
    exact List.mem_of_mem_drop hinput
  · obtain ⟨e, he, rfl⟩ := List.mem_map.mp hinput
    have hrow : e ∈ (revocationRows.map (refiled organization)).take 3 := he
    exact blob_recorded (List.mem_of_mem_take hrow)

/-- An anchor over three revocations, a fourth one appended behind a rollback,
and the grown table refiled. -/
theorem anchors_pin_prefix_revocations : ∃ (anchor : AuditAnchor) (db : AuditDB),
    createAnchor recordedSha256 [thirdRow, secondRow, firstRow] =
        .ok (some anchor) ∧
      db.committed = [fourthRow, thirdRow, secondRow, firstRow] ∧
      verifyAnchor recordedSha256 db.committed anchor = .ok (true, none) ∧
      verifyAnchor recordedSha256 (revocationRows.map (refiled (some "south")))
        anchor = .ok (true, none) ∧
      List.Forall₂ (fun a b => SameContent a b ∧ a.seq = b.seq)
        [firstRow, secondRow, thirdRow] (coveredRevocations (some "south")) := by
  have hbase : (verifyChain recordedHex [thirdRow, secondRow, firstRow]
      none).1 = true :=
    sound_iff.mp ((revocations_verify none).take 3)
  have hanchor : createAnchor recordedSha256 [thirdRow, secondRow, firstRow] =
      .ok (some ⟨3, "e-3", toHex rootDigest⟩) := by
    have hcovered : coveredEvents none [thirdRow, secondRow, firstRow] =
        [firstRow, secondRow, thirdRow] := rfl
    have hhashes : [firstRow, secondRow, thirdRow].map AuditEvent.eventHash =
        [toHex firstDigest, toHex secondDigest, toHex thirdDigest] := rfl
    rw [createAnchor, hcovered]
    simp only [hhashes, leaves_recorded.2]
    rfl
  have hstart : AuditRun recordedHex sampleIso
      (Sanitized tokenSchemas id recordedHex)
      { committed := [thirdRow, secondRow, firstRow] }
      { committed := [thirdRow, secondRow, firstRow] } := .refl
  have hlost := AuditRun.append hstart 1 event_fourth
    (sanitized_revocation (by simp)) rfl (.inl rfl) rfl (by decide)
  have hback := hlost.tail (@AuditStep.rollback _ _ _ _ 1)
  have hagain := AuditRun.append hback 0 event_fourth
    (sanitized_revocation (by simp)) rfl (.inl rfl) rfl (by decide)
  have hrun := hagain.tail (@AuditStep.commit _ _ _ _ 0 rfl)
  obtain ⟨-, hafter, hpins⟩ := @ anchors_pin_prefix recordedSha256 sampleIso
    length_recordedSha256
  have hverify := hafter _ _ _ _ hbase hanchor hrun
  have hrefiled : verifyAnchor recordedSha256
      (revocationRows.map (refiled (some "south")))
      ⟨3, "e-3", toHex rootDigest⟩ = .ok (true, none) :=
    @verifyAnchor_ok _ _ _ (refiled (some "south") thirdRow) rfl rfl rfl
      leaves_recorded.2
  have hgrown : (verifyChain recordedHex
      (revocationRows.map (refiled (some "south"))) none).1 = true :=
    sound_iff.mp (revocations_verify (some "south"))
  refine ⟨_, _, hanchor, rfl, hverify, hrefiled,
    hpins _ _ _ hbase hanchor hgrown hrefiled ?_⟩
  intro a ha b hb hab
  have hrecorded : ∀ input ∈
      anchorInputs recordedSha256 (coveredRevocations none) ++
        anchorInputs recordedSha256 (coveredRevocations (some "south")),
      input ∈ recordedDigests.map Prod.fst := by
    intro input hinput
    rcases List.mem_append.mp hinput with hinput | hinput
    · exact anchorInputs_recorded _ input hinput
    · exact anchorInputs_recorded _ input hinput
  exact recordedSha256_inj (hrecorded a ha) (hrecorded b hb) hab

end Anchors

end NodeLink.Proofs
