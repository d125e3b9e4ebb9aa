import NodeLink.Proofs.AuditChain

/-!
# What a verified chain commits to

The last hash of a verified table fixes the hashed document of every event.
The columns that stand next to the document, such as the organization an
event is filed under, are not part of it.
-/

namespace NodeLink.Proofs

open Lib Server

/-- Two rows with the same hashed record. -/
structure SameRecord (a b : AuditEvent) : Prop where
  seq : a.seq = b.seq
  tsIso : a.tsIso = b.tsIso
  actor : a.actor = b.actor
  action : a.action = b.action
  agentID : a.agentID = b.agentID
  detail : SameValue a.detail b.detail

/-- Two rows an operator cannot tell apart. -/
structure SameShown (a b : AuditEvent) : Prop extends SameRecord a b where
  ts : a.ts = b.ts
  actorUserID : a.actorUserID = b.actorUserID
  organizationID : a.organizationID = b.organizationID
  enrollmentTokenID : a.enrollmentTokenID = b.enrollmentTokenID
  sourceIP : a.sourceIP = b.sourceIP
  userAgent : a.userAgent = b.userAgent

/-- The members of the hashed document of a sequenced row. -/
def documentMembers (e : AuditEvent) : List (String × StoredJson) :=
  [("prev_hash", .str e.prevHash), ("ts", .str e.tsIso), ("actor", .str e.actor),
    ("action", .str e.action), ("agent_id", jsonString e.agentID),
    ("detail", e.detail), ("seq", jsonInt e.seq)]

theorem document_eq {e : AuditEvent} (h : hashSchemaSequenced ≤ e.hashSchema) :
    e.document = .obj (documentMembers e) := by
  rw [AuditEvent.document, if_pos h]
  rfl

theorem str_of_sameValue {s t : String}
    (h : SameValue (.str s) (.str t)) : s = t := Json.str.inj h

theorem eq_of_jsonString {s t : Option String}
    (h : SameValue (jsonString s) (jsonString t)) : s = t := by
  cases s with
  | none => cases t with
    | none => rfl
    | some t => cases h
  | some s => cases t with
    | none => cases h
    | some t => rw [str_of_sameValue h]

theorem eq_of_jsonInt {i j : Option Int}
    (h : SameValue (jsonInt i) (jsonInt j)) : i = j := by
  cases i with
  | none => cases j with
    | none => rfl
    | some j => cases h
  | some i => cases j with
    | none => cases h
    | some j => rw [Number.ofInt_injective (Json.num.inj h)]

/-- The hashed bytes of a sequenced row determine its record and the hash it
names. -/
theorem sameRecord_of_blob {a b : AuditEvent}
    (ha : hashSchemaSequenced ≤ a.hashSchema)
    (hb : hashSchemaSequenced ≤ b.hashSchema) (h : a.blob = b.blob) :
    SameRecord a b ∧ a.prevHash = b.prevHash := by
  have hdoc : SameValue (.obj (documentMembers a)) (.obj (documentMembers b)) := by
    rw [← document_eq ha, ← document_eq hb]
    exact dumpsSorted_eq_iff.mp (utf8_injective h)
  -- each key stands once in the other document, so its value is the one found
  have hfield : ∀ {k : String} {v w : StoredJson}, (k, v) ∈ documentMembers a →
      (∀ x, (k, x) ∈ documentMembers b → x = w) → SameValue v w := by
    intro k v w hv hw
    obtain ⟨x, hx, hvx⟩ := hdoc.member hv
    exact hw x hx ▸ hvx
  have hprev := hfield (k := "prev_hash") (v := .str a.prevHash)
    (w := .str b.prevHash) (by simp [documentMembers]) (by simp [documentMembers])
  have hts := hfield (k := "ts") (v := .str a.tsIso) (w := .str b.tsIso)
    (by simp [documentMembers]) (by simp [documentMembers])
  have hactor := hfield (k := "actor") (v := .str a.actor) (w := .str b.actor)
    (by simp [documentMembers]) (by simp [documentMembers])
  have haction := hfield (k := "action") (v := .str a.action) (w := .str b.action)
    (by simp [documentMembers]) (by simp [documentMembers])
  have hagent := hfield (k := "agent_id") (v := jsonString a.agentID)
    (w := jsonString b.agentID) (by simp [documentMembers])
    (by simp [documentMembers])
  have hdetail := hfield (k := "detail") (v := a.detail) (w := b.detail)
    (by simp [documentMembers]) (by simp [documentMembers])
  have hseq := hfield (k := "seq") (v := jsonInt a.seq) (w := jsonInt b.seq)
    (by simp [documentMembers]) (by simp [documentMembers])
  exact ⟨⟨eq_of_jsonInt hseq, str_of_sameValue hts, str_of_sameValue hactor,
    str_of_sameValue haction, eq_of_jsonString hagent, hdetail⟩,
    str_of_sameValue hprev⟩

section Tables

variable {sha256Hex : Bytes → String}

/-- No two rows of the tables have different hashed bytes but one hash. -/
def NoCollision (sha256Hex : Bytes → String) (t₁ t₂ : List AuditEvent) : Prop :=
  ∀ a ∈ t₁, ∀ b ∈ t₂, sha256Hex a.blob = sha256Hex b.blob → a.blob = b.blob

/-- The hash of the last row in sequence order. -/
def lastHash (table : List AuditEvent) : Option String :=
  (table.insertionSort seqLe).getLast?.map AuditEvent.eventHash

/-- Two verified tables of sequenced rows that have one length and one last
hash have the same records, row by row. -/
theorem verified_tables_agree {t₁ t₂ : List AuditEvent}
    (hsha : NoCollision sha256Hex t₁ t₂)
    (h₁ : (verifyChain sha256Hex t₁ none).1 = true)
    (h₂ : (verifyChain sha256Hex t₂ none).1 = true)
    (hs₁ : ∀ e ∈ t₁, hashSchemaSequenced ≤ e.hashSchema)
    (hs₂ : ∀ e ∈ t₂, hashSchemaSequenced ≤ e.hashSchema)
    (hlen : t₁.length = t₂.length) (hlast : lastHash t₁ = lastHash t₂) :
    List.Forall₂ SameRecord (t₁.insertionSort seqLe) (t₂.insertionSort seqLe) := by
  refine (sound_iff.mpr h₁).linked.agree (sound_iff.mpr h₂).linked ?_ ?_ ?_
  · rw [List.length_insertionSort, List.length_insertionSort, hlen]
  · exact congrArg (fun h => h.getD genesis) hlast
  · intro a ha b hb hab
    rw [List.mem_insertionSort] at ha hb
    exact sameRecord_of_blob (hs₁ a ha) (hs₂ b hb) (hsha a ha b hb hab)

/-- A sign-in filed under an organization. -/
def filedSignIn (organization : String) : AuditEvent where
  id := "e-1"
  seq := some 1
  hashSchema := hashSchemaSequenced
  ts := 0
  tsIso := "1970-01-01T00:00:00+00:00"
  actor := "ops@example"
  actorUserID := none
  action := "operator.login"
  agentID := none
  enrollmentTokenID := none
  organizationID := some organization
  sourceIP := none
  userAgent := none
  detail := .obj [("outcome", .str "ok")]
  prevHash := genesis
  eventHash := ""

/-- The organization of an event can be rewritten unnoticed. -/
theorem verified_tables_disagree : ∃ (sha256Hex : Bytes → String)
    (t₁ t₂ : List AuditEvent), NoCollision sha256Hex t₁ t₂ ∧
      (verifyChain sha256Hex t₁ none).1 = true ∧
      (verifyChain sha256Hex t₂ none).1 = true ∧
      (∀ e ∈ t₁ ++ t₂, hashSchemaSequenced = e.hashSchema) ∧
      t₁.length = t₂.length ∧ lastHash t₁ = lastHash t₂ ∧
      ¬ List.Forall₂ SameShown (t₁.insertionSort seqLe)
        (t₂.insertionSort seqLe) := by
  refine ⟨fun _ => "", [filedSignIn "north"], [filedSignIn "south"], ?_, rfl, rfl,
    ?_, rfl, rfl, ?_⟩
  · intro a ha b hb _
    obtain rfl := List.mem_singleton.mp ha
    obtain rfl := List.mem_singleton.mp hb
    rfl
  · intro e he
    rcases List.mem_cons.mp he with rfl | he
    · rfl
    · obtain rfl := List.mem_singleton.mp he
      rfl
  · intro h
    obtain ⟨hshown, -⟩ := List.forall₂_cons.mp h
    exact absurd (Option.some.inj hshown.organizationID) (by decide)

theorem schema_refiled {organization : Option String} {e : AuditEvent}
    (h : e ∈ revocationRows.map (refiled organization)) :
    hashSchemaSequenced ≤ e.hashSchema := by
  simp only [revocationRows, List.map_cons, List.map_nil, List.mem_cons,
    List.not_mem_nil, or_false] at h
  rcases h with rfl | rfl | rfl | rfl <;> exact le_refl hashSchemaSequenced

/-- Four linked rows, stored newest first in one table, and refiled in the
other. -/
theorem verified_tables_agree_refiled :
    (revocationRows.map AuditEvent.eventHash).Nodup ∧
      List.Forall₂ SameRecord revocationRows
        (revocationRows.map (refiled (some "south"))) := by
  have hsorted : revocationRows.reverse.insertionSort seqLe =
      revocationRows.map (refiled none) := rfl
  have hsorted' : (revocationRows.map (refiled (some "south"))).insertionSort
      seqLe = revocationRows.map (refiled (some "south")) := rfl
  have hsound : Sound recordedHex revocationRows.reverse := by
    rw [Sound, hsorted]
    exact revocations_verify none
  have hsound' : Sound recordedHex
      (revocationRows.map (refiled (some "south"))) := by
    rw [Sound, hsorted']
    exact revocations_verify (some "south")
  have hmem : ∀ e ∈ revocationRows.reverse, e ∈ revocationRows.map (refiled none) :=
    fun e he => List.mem_reverse.mp he
  have hfree : NoCollision recordedHex revocationRows.reverse
      (revocationRows.map (refiled (some "south"))) :=
    fun a ha b hb hab => recordedSha256_inj (blob_recorded (hmem a ha))
      (blob_recorded hb) (toHex_injective hab)
  exact ⟨by decide, verified_tables_agree hfree (sound_iff.mp hsound)
    (sound_iff.mp hsound') (fun e he => schema_refiled (hmem e he))
    (fun e he => schema_refiled he) rfl rfl⟩

end Tables

end NodeLink.Proofs
