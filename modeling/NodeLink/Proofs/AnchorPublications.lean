import NodeLink.Proofs.AuditAnchors
import NodeLink.Server.AnchorPublishing

/-!
# What stands at the key of an anchor

The key of an anchor says how many events it covers and their root, and its
document says besides when it was made and under which id. So the key does not
determine the document: a second anchor over the same events has the key of the
first and another document, also when the first one was rolled back after its
document had gone out. In a run where every anchor is made with a key of its
own, whatever stands at the key of an anchor is its document. A pass that
completes has published what was committed before it, as long as the backend
takes what it is given.
-/

namespace NodeLink.Proofs.AnchorPublications

open Lib Server.AnchorPublishing

variable {sha256 : Lib.Bytes → Lib.Bytes} {isoformat : Int → String}
  {B : Backend} {s s' : State} {t u : Nat} {x y : Txn} {a b : AnchorRow}

/-! ## Anchors with a key of their own -/

/-- The anchor is committed, or flushed by a transaction under way. -/
def AtLarge (s : State) (a : AnchorRow) : Prop :=
  a ∈ s.anchors ∨ ∃ t x, s.txns.Has t x ∧ x.anchor = some a

/-- Anchors with one key have one document, and nothing else stands at it. -/
structure Consistent (isoformat : Int → String) (B : Backend) (s : State) :
    Prop where
  agree : ∀ a b, AtLarge s a → AtLarge s b → B.objectKey a = B.objectKey b →
    canonicalAnchorDocument isoformat a = canonicalAnchorDocument isoformat b
  stored : ∀ a, AtLarge s a → ∀ bytes, s.stored (B.objectKey a) = some bytes →
    bytes = canonicalAnchorDocument isoformat a

/-- What is left to publish is at large. -/
def Queued (s : State) : Prop :=
  ∀ t x, s.txns.Has t x → ∀ q, x.queue = some q → ∀ a ∈ q,
    a ∈ s.anchors ∨ x.anchor = some a

/-- Nobody has the key yet, and nothing stands at it. -/
def NewKey (B : Backend) (s : State) (a : AnchorRow) : Prop :=
  (∀ b, AtLarge s b → B.objectKey b ≠ B.objectKey a) ∧
    s.stored (B.objectKey a) = none

/-- An anchor is made over events that no anchor was made over before. -/
def Clear (sha256 : Lib.Bytes → Lib.Bytes) (B : Backend) (s : State) :
    Action → Prop
  | .create _ id now => ∀ a, newAnchor sha256 s id now = some a → NewKey B s a
  | .ensure _ id now => current s = false →
    ∀ a, newAnchor sha256 s id now = some a → NewKey B s a
  | _ => True

theorem Consistent.of_atLarge (h : Consistent isoformat B s)
    (hlarge : ∀ a, AtLarge s' a → AtLarge s a) (hstored : s'.stored = s.stored) :
    Consistent isoformat B s' where
  agree a b ha hb := h.agree a b (hlarge a ha) (hlarge b hb)
  stored a ha bytes hbytes := by
    rw [hstored] at hbytes
    exact h.stored a (hlarge a ha) bytes hbytes

/-- The document of an anchor that is at large goes to its key. -/
theorem Consistent.store (h : Consistent isoformat B s) (ha : AtLarge s a)
    (hlarge : ∀ b, AtLarge s' b → AtLarge s b)
    (hstored : s'.stored = Function.update s.stored (B.objectKey a)
      (some (canonicalAnchorDocument isoformat a))) :
    Consistent isoformat B s' where
  agree b c hb hc := h.agree b c (hlarge b hb) (hlarge c hc)
  stored b hb bytes hbytes := by
    rw [hstored] at hbytes
    by_cases hkey : B.objectKey b = B.objectKey a
    · rw [hkey, Function.update_self] at hbytes
      rw [← Option.some.inj hbytes]
      exact h.agree a b ha (hlarge b hb) hkey.symm
    · rw [Function.update_of_ne hkey] at hbytes
      exact h.stored b (hlarge b hb) bytes hbytes

/-- An anchor with a key of its own comes in. -/
theorem Consistent.add (h : Consistent isoformat B s) (hnew : NewKey B s a)
    (hlarge : ∀ b, AtLarge s' b → b = a ∨ AtLarge s b)
    (hstored : s'.stored = s.stored) : Consistent isoformat B s' where
  agree b c hb hc hkey := by
    rcases hlarge b hb with rfl | hb'
    · rcases hlarge c hc with rfl | hc'
      · rfl
      · exact absurd hkey.symm (hnew.1 c hc')
    · rcases hlarge c hc with rfl | hc'
      · exact absurd hkey (hnew.1 b hb')
      · exact h.agree b c hb' hc' hkey
  stored b hb bytes hbytes := by
    rw [hstored] at hbytes
    rcases hlarge b hb with rfl | hb'
    · rw [hnew.2] at hbytes
      cases hbytes
    · exact h.stored b hb' bytes hbytes

/-! ### Transactions come, go on and go -/

theorem atLarge_put (h : AtLarge s' b) (hget : s.txns.get t = some x)
    (htxns : s'.txns = s.txns.put t y) (hanchor : y.anchor = x.anchor)
    (hanchors : s'.anchors = s.anchors) : AtLarge s b := by
  rcases h with hcommitted | ⟨u, z, hz, hb⟩
  · exact .inl (hanchors ▸ hcommitted)
  · rw [htxns] at hz
    rcases Open.has_put.mp hz with ⟨_, rfl⟩ | ⟨hold, _⟩
    · exact .inr ⟨t, x, Open.has_of_get hget, hanchor ▸ hb⟩
    · exact .inr ⟨u, z, hold, hb⟩

theorem atLarge_begin (h : AtLarge s' b) (htxns : s'.txns = s.txns.put t y)
    (hanchors : s'.anchors = s.anchors) : y.anchor = some b ∨ AtLarge s b := by
  rcases h with hcommitted | ⟨u, z, hz, hb⟩
  · exact .inr (.inl (hanchors ▸ hcommitted))
  · rw [htxns] at hz
    rcases Open.has_put.mp hz with ⟨_, rfl⟩ | ⟨hold, _⟩
    · exact .inl hb
    · exact .inr (.inr ⟨u, z, hold, hb⟩)

theorem atLarge_close (h : AtLarge s' b) (htxns : s'.txns = s.txns.close t)
    (hanchors : ∀ b ∈ s'.anchors, AtLarge s b) : AtLarge s b := by
  rcases h with hcommitted | ⟨u, z, hz, hb⟩
  · exact hanchors b hcommitted
  · rw [htxns] at hz
    exact .inr ⟨u, z, (Open.has_close.mp hz).1, hb⟩

theorem Queued.put (h : Queued s)
    (hy : ∀ q, y.queue = some q → ∀ a ∈ q, a ∈ s.anchors ∨ y.anchor = some a)
    (htxns : s'.txns = s.txns.put t y) (hanchors : s'.anchors = s.anchors) :
    Queued s' := by
  intro u z hz q hq a ha
  rw [htxns] at hz
  rw [hanchors]
  rcases Open.has_put.mp hz with ⟨_, rfl⟩ | ⟨hold, _⟩
  · exact hy q hq a ha
  · exact h u z hold q hq a ha

theorem Queued.close (h : Queued s) (htxns : s'.txns = s.txns.close t)
    (hanchors : ∀ a ∈ s.anchors, a ∈ s'.anchors) : Queued s' := by
  intro u z hz q hq a ha
  rw [htxns] at hz
  rcases h u z (Open.has_close.mp hz).1 q hq a ha with hcommitted | hown
  · exact .inl (hanchors a hcommitted)
  · exact .inr hown

/-- What a pass selects, it sees. -/
theorem mem_unpublishedAnchors (h : a ∈ unpublishedAnchors s x) :
    a ∈ s.anchors ∨ x.anchor = some a := by
  have hseen := (List.mem_filter.mp (List.mem_insertionSort _ |>.mp h)).1
  rcases List.mem_append.mp hseen with hown | hcommitted
  · exact .inr (Option.mem_toList.mp hown)
  · exact .inl hcommitted

/-- The queue of a pass is its anchors: each is at large. -/
theorem Queued.atLarge (h : Queued s) (hget : s.txns.get t = some x)
    {q : List AnchorRow} (hq : x.queue = some q) (ha : a ∈ q) : AtLarge s a := by
  rcases h t x (Open.has_of_get hget) q hq a ha with hcommitted | hown
  · exact .inl hcommitted
  · exact .inr ⟨t, x, Open.has_of_get hget, hown⟩

/-- The backend takes the document of the anchor, and nothing fails. -/
def Taken (isoformat : Int → String) (B : Backend) (s : State) (a : AnchorRow)
    (now : Int) (outage : Option Outage) : Prop :=
  outage = none ∧ ∃ result stored, B.publish now s.stored (B.objectKey a)
    (canonicalAnchorDocument isoformat a) = .ok (result, stored)

/-- What one turn of the loop does: a row for the anchor, published when the
document was taken, and at most the document at its key. -/
theorem publishStep_spec (rest : List AnchorRow) (now : Int)
    (outage : Option Outage) :
    ∃ (w : PublicationWrite) (stored : Destination),
      publishStep sha256 isoformat B s t x a rest now outage =
        { s with
          stored := stored
          txns := s.txns.put t
            { x with
              queue := some rest
              rows := Function.update x.rows a.id (some w) } } ∧
      w.read = (publicationRow s x a.id).read ∧
      (stored = s.stored ∨ stored = Function.update s.stored (B.objectKey a)
        (some (canonicalAnchorDocument isoformat a))) ∧
      (Taken isoformat B s a now outage → w.new.status = .published) := by
  unfold publishStep
  split
  · next o =>
      refine ⟨_, _, rfl, rfl, ?_, ?_⟩
      · split
        · exact .inr rfl
        · exact .inl rfl
      · intro htaken
        cases htaken.1
  · split
    · next error herror =>
        refine ⟨_, s.stored, rfl, rfl, .inl rfl, ?_⟩
        intro ⟨_, result, stored, htaken⟩
        rw [herror] at htaken
        cases htaken
    · next result stored hok =>
        refine ⟨_, _, rfl, rfl, .inr (B.stores _ _ _ _ _ _ hok), ?_⟩
        exact fun _ => rfl

/-- Every clear action keeps anchors apart. -/
theorem next_consistent {act : Action} (h : Consistent isoformat B s)
    (hqueued : Queued s) (hclear : Clear sha256 B s act) :
    Consistent isoformat B (next sha256 isoformat B s act) ∧
      Queued (next sha256 isoformat B s act) := by
  cases act with
  | grow events => exact ⟨h.of_atLarge (fun _ ha => ha) rfl, hqueued⟩
  | create t id now =>
      rw [next]
      split
      · exact ⟨h, hqueued⟩
      · next a ha =>
          refine ⟨h.add (hclear a ha) (fun b hb => ?_) rfl,
            hqueued.put (fun q hq => by cases hq) rfl rfl⟩
          rcases atLarge_begin hb rfl rfl with heq | hold
          · exact .inl (Option.some.inj heq).symm
          · exact .inr hold
  | ensure t id now =>
      rw [next]
      split
      · refine ⟨h.of_atLarge (fun b hb => ?_) rfl,
          hqueued.put (fun q hq => by cases hq) rfl rfl⟩
        rcases atLarge_begin hb rfl rfl with heq | hold
        · cases heq
        · exact hold
      · next hcurrent =>
          split
          · exact ⟨h, hqueued⟩
          · next a ha =>
              have hnew := hclear (Bool.eq_false_iff.mpr hcurrent) a ha
              refine ⟨h.add hnew (fun b hb => ?_) rfl,
                hqueued.put (fun q hq => by cases hq) rfl rfl⟩
              rcases atLarge_begin hb rfl rfl with heq | hold
              · exact .inl (Option.some.inj heq).symm
              · exact .inr hold
  | select t =>
      rw [next]
      split
      · exact ⟨h, hqueued⟩
      · next x hx =>
          refine ⟨h.of_atLarge (fun b hb => atLarge_put hb hx rfl rfl rfl) rfl,
            hqueued.put (fun q hq a ha => ?_) rfl rfl⟩
          cases hq
          exact mem_unpublishedAnchors ha
  | publish t now outage =>
      rw [next]
      split
      · exact ⟨h, hqueued⟩
      · next x hx =>
          split
          · next a rest hq =>
              obtain ⟨w, stored, hstep, _, hstored, _⟩ :=
                publishStep_spec rest now outage
              rw [hstep]
              have ha := hqueued.atLarge hx hq List.mem_cons_self
              constructor
              · rcases hstored with rfl | hstored
                · exact h.of_atLarge (fun b hb => atLarge_put hb hx rfl rfl rfl)
                    rfl
                · exact h.store ha (fun b hb => atLarge_put hb hx rfl rfl rfl)
                    hstored
              · refine hqueued.put (fun q' hq' b hb => ?_) rfl rfl
                cases hq'
                exact hqueued t x (Open.has_of_get hx) _ hq b
                  (List.mem_cons_of_mem _ hb)
          · exact ⟨h, hqueued⟩
  | commit t events =>
      rw [next]
      split
      · exact ⟨h, hqueued⟩
      · next x hx =>
          refine ⟨h.of_atLarge (fun b hb => atLarge_close hb rfl ?_) rfl,
            hqueued.close rfl fun a ha => List.mem_append_right _ ha⟩
          intro c hc
          rcases List.mem_append.mp hc with hown | hcommitted
          · exact .inr ⟨t, x, Open.has_of_get hx, Option.mem_toList.mp hown⟩
          · exact .inl hcommitted
  | rollback t =>
      exact ⟨h.of_atLarge (fun b hb => atLarge_close hb rfl fun _ => .inl) rfl,
        hqueued.close rfl fun _ ha => ha⟩

/-! ## Passes that complete -/

/-- The publication of the anchor is committed. -/
def Published (s : State) (id : String) : Prop :=
  ∃ p, s.publications id = some p ∧ p.status = .published

/-- What transactions write to publications publishes them, and what they read
as published is so. -/
def Kept (s : State) : Prop :=
  ∀ t x, s.txns.Has t x → ∀ id w, x.rows id = some w →
    w.new.status = .published ∧
    ∀ r, w.read = some r → r.status = .published → Published s id

/-- The writes of the action are taken. -/
def Accepted (isoformat : Int → String) (B : Backend) (s : State) :
    Action → Prop
  | .publish t now outage => ∀ x a rest, s.txns.get t = some x →
    x.queue = some (a :: rest) → Taken isoformat B s a now outage
  | _ => True

theorem Published.of_eq {id : String} (h : Published s id)
    (heq : s'.publications = s.publications) : Published s' id := by
  rw [Published, heq]
  exact h

theorem Kept.of_txns (h : Kept s) (heq : s'.publications = s.publications)
    (hsub : ∀ u y, s'.txns.Has u y → ∃ v z, s.txns.Has v z ∧ y.rows = z.rows) :
    Kept s' := by
  intro u y hy id w hw
  obtain ⟨v, z, hz, hrows⟩ := hsub u y hy
  rw [hrows] at hw
  obtain ⟨hnew, hread⟩ := h v z hz id w hw
  exact ⟨hnew, fun r hr hpublished => (hread r hr hpublished).of_eq heq⟩

theorem Kept.begin (h : Kept s) (hrows : y.rows = fun _ => none) :
    Kept { s with txns := s.txns.put t y } := by
  intro u z hz id w hw
  rcases Open.has_put.mp hz with ⟨_, rfl⟩ | ⟨hold, _⟩
  · rw [hrows] at hw
    cases hw
  · exact h u z hold id w hw

/-- A row that is written is published. -/
theorem apply_status {w : PublicationWrite} {id : String}
    (hnew : w.new.status = .published)
    (hread : ∀ r, w.read = some r → r.status = .published → Published s id) :
    (w.apply (s.publications id)).status = .published := by
  unfold PublicationWrite.apply
  split
  · next r c hr hc =>
      show written (decide (w.new.status = r.status)) w.new.status c.status = _
      by_cases hsame : w.new.status = r.status
      · obtain ⟨p, hp, hpublished⟩ := hread r hr (hsame.symm.trans hnew)
        rw [hc] at hp
        cases hp
        rw [written, decide_eq_true hsame]
        exact hpublished
      · rw [written, decide_eq_false hsame]
        exact hnew
  · exact hnew

/-- A commit publishes what it wrote, and takes nothing back. -/
theorem published_commit (hkept : Kept s) (hx : s.txns.Has t x) {id : String}
    (h : Published s id ∨ ∃ w, x.rows id = some w)
    (heq : s'.publications = fun id =>
      match x.rows id with
      | some w => some (w.apply (s.publications id))
      | none => s.publications id) : Published s' id := by
  rw [Published, heq]
  simp only
  split
  · next w hw =>
      obtain ⟨hnew, hread⟩ := hkept t x hx id w hw
      exact ⟨_, rfl, apply_status hnew hread⟩
  · next hnone =>
      rcases h with hpublished | ⟨w, hw⟩
      · exact hpublished
      · rw [hnone] at hw
        cases hw

/-- Every action whose writes are taken keeps what is published. -/
theorem next_kept {act : Action} (h : Kept s)
    (haccepted : Accepted isoformat B s act) :
    Kept (next sha256 isoformat B s act) ∧
      ∀ id, Published s id → Published (next sha256 isoformat B s act) id := by
  cases act with
  | grow events => exact ⟨h, fun _ hid => hid⟩
  | create t id now =>
      rw [next]
      split
      · exact ⟨h, fun _ hid => hid⟩
      · exact ⟨h.begin rfl, fun _ hid => hid⟩
  | ensure t id now =>
      rw [next]
      split
      · exact ⟨h.begin rfl, fun _ hid => hid⟩
      · split
        · exact ⟨h, fun _ hid => hid⟩
        · exact ⟨h.begin rfl, fun _ hid => hid⟩
  | select t =>
      rw [next]
      split
      · exact ⟨h, fun _ hid => hid⟩
      · next x hx =>
          refine ⟨h.of_txns rfl fun u y hy => ?_, fun _ hid => hid⟩
          rcases Open.has_put.mp hy with ⟨_, rfl⟩ | ⟨hold, _⟩
          · exact ⟨t, x, Open.has_of_get hx, rfl⟩
          · exact ⟨u, y, hold, rfl⟩
  | publish t now outage =>
      rw [next]
      split
      · exact ⟨h, fun _ hid => hid⟩
      · next x hx =>
          split
          · next a rest hq =>
              obtain ⟨w, stored, hstep, hread, _, hpublished⟩ :=
                publishStep_spec rest now outage
              rw [hstep]
              refine ⟨?_, fun _ hid => hid⟩
              intro u y hy id w' hw'
              rcases Open.has_put.mp hy with ⟨_, rfl⟩ | ⟨hold, _⟩
              · have hw : Function.update x.rows a.id (some w) id = some w' := hw'
                by_cases hid : id = a.id
                · rw [hid, Function.update_self] at hw
                  cases hw
                  refine ⟨hpublished (haccepted x a rest hx hq), ?_⟩
                  intro r hr hstatus
                  rw [hread, publicationRow] at hr
                  rw [hid]
                  split at hr
                  · next w₀ hw₀ =>
                      exact (h t x (Open.has_of_get hx) a.id w₀ hw₀).2 r hr
                        hstatus
                  · exact ⟨r, hr, hstatus⟩
                · rw [Function.update_of_ne hid] at hw
                  exact h t x (Open.has_of_get hx) id w' hw
              · exact h u y hold id w' hw'
          · exact ⟨h, fun _ hid => hid⟩
  | commit t events =>
      rw [next]
      split
      · exact ⟨h, fun _ hid => hid⟩
      · next x hx =>
          have hmono : ∀ id, Published s id → Published
              { s with
                events := events ++ s.events
                anchors := seen s x
                publications := fun id =>
                  match x.rows id with
                  | some w => some (w.apply (s.publications id))
                  | none => s.publications id
                txns := s.txns.close t } id :=
            fun id hid => published_commit h (Open.has_of_get hx) (.inl hid) rfl
          refine ⟨?_, hmono⟩
          intro u y hy id w hw
          obtain ⟨hnew, hread⟩ := h u y (Open.has_close.mp hy).1 id w hw
          exact ⟨hnew, fun r hr hstatus => hmono id (hread r hr hstatus)⟩
  | rollback t =>
      refine ⟨h.of_txns rfl fun u y hy => ?_, fun _ hid => hid⟩
      exact ⟨u, y, (Open.has_close.mp hy).1, rfl⟩

/-- The pass has selected, and each of the anchors is published, or to be
published, or written. -/
def Due (A : List AnchorRow) (t : Nat) (s : State) : Prop :=
  ∃ x q, s.txns.get t = some x ∧ x.caller = .scheduler ∧ x.queue = some q ∧
    ∀ a ∈ A, Published s a.id ∨ a ∈ q ∨ ∃ w, x.rows a.id = some w

/-- The pass of `t` does not end here. -/
def goesOn (t : Nat) : Action → Bool
  | .commit u _ => decide (u ≠ t)
  | .rollback u => decide (u ≠ t)
  | _ => true

theorem Due.of_get {A : List AnchorRow} (h : Due A t s)
    (hget : s'.txns.get t = s.txns.get t)
    (hmono : ∀ id, Published s id → Published s' id) : Due A t s' := by
  obtain ⟨x, q, hx, hcaller, hq, hall⟩ := h
  refine ⟨x, q, hget.trans hx, hcaller, hq, fun a ha => ?_⟩
  rcases hall a ha with hpublished | hrest
  · exact .inl (hmono a.id hpublished)
  · exact .inr hrest

theorem due_select (henabled : enabled s (.select t) = true) :
    Due s.anchors t (next sha256 isoformat B s (.select t)) := by
  rw [enabled] at henabled
  split at henabled
  · next x hx =>
      rw [Bool.and_eq_true, decide_eq_true_iff] at henabled
      rw [next, hx]
      refine ⟨_, _, Open.get_put, henabled.1, rfl, fun a ha => ?_⟩
      by_cases hpublished : isPublished s a = true
      · left
        unfold isPublished at hpublished
        split at hpublished
        · next p hp => exact ⟨p, hp, of_decide_eq_true hpublished⟩
        · cases hpublished
      · right
        left
        refine (List.mem_insertionSort _).mpr (List.mem_filter.mpr ⟨?_, ?_⟩)
        · exact List.mem_append_right _ ha
        · rw [Bool.not_eq_true'] at *
          exact Bool.eq_false_iff.mpr hpublished
  · cases henabled

theorem Due.step {A : List AnchorRow} {act : Action} (h : Due A t s)
    (hkept : Kept s) (henabled : enabled s act = true)
    (haccepted : Accepted isoformat B s act) (hgoes : goesOn t act = true) :
    Due A t (next sha256 isoformat B s act) := by
  have hmono := (@next_kept sha256 isoformat B s act hkept haccepted).2
  obtain ⟨x, q, hx, hcaller, hq, hall⟩ := id h
  cases act with
  | grow events => exact h
  | create u id now =>
      have hne : t ≠ u := by
        rintro rfl
        rw [enabled, hx] at henabled
        cases henabled
      refine h.of_get ?_ hmono
      rw [Server.AnchorPublishing.next]
      split
      · rfl
      · exact Open.get_put_of_ne hne
  | ensure u id now =>
      have hne : t ≠ u := by
        rintro rfl
        rw [enabled, hx] at henabled
        cases henabled
      refine h.of_get ?_ hmono
      rw [Server.AnchorPublishing.next]
      split
      · exact Open.get_put_of_ne hne
      · split
        · rfl
        · exact Open.get_put_of_ne hne
  | select u =>
      have hne : t ≠ u := by
        rintro rfl
        simp only [enabled, hx, hq, Option.isNone_some, Bool.and_false] at henabled
        cases henabled
      refine h.of_get ?_ hmono
      rw [Server.AnchorPublishing.next]
      split
      · rfl
      · exact Open.get_put_of_ne hne
  | publish u now outage =>
      by_cases hut : t = u
      · rw [← hut, Server.AnchorPublishing.next, hx]
        simp only
        split
        · next a rest hcons =>
            obtain ⟨w, stored, hstep, _⟩ := @publishStep_spec sha256 isoformat B s
              t x a rest now outage
            rw [hstep]
            refine ⟨_, rest, Open.get_put, hcaller, rfl, fun b hb => ?_⟩
            rw [hq] at hcons
            cases hcons
            rcases hall b hb with hpublished | hqueue | ⟨w', hw'⟩
            · exact .inl hpublished
            · rcases List.mem_cons.mp hqueue with rfl | hrest
              · exact .inr (.inr ⟨w, Function.update_self _ _ _⟩)
              · exact .inr (.inl hrest)
            · right
              right
              show ∃ w'', Function.update x.rows a.id (some w) b.id = some w''
              by_cases hid : b.id = a.id
              · exact ⟨w, by rw [hid, Function.update_self]⟩
              · exact ⟨w', by rw [Function.update_of_ne hid, hw']⟩
        · exact h
      · refine h.of_get ?_ hmono
        rw [Server.AnchorPublishing.next]
        split
        · rfl
        · split
          · next a rest hcons =>
              obtain ⟨w, stored, hstep, _⟩ := @publishStep_spec sha256 isoformat B
                s u _ a rest now outage
              rw [hstep]
              exact Open.get_put_of_ne hut
          · rfl
  | commit u events =>
      have hne : u ≠ t := of_decide_eq_true hgoes
      refine h.of_get ?_ hmono
      rw [Server.AnchorPublishing.next]
      split
      · rfl
      · exact Open.get_close_of_ne hne.symm
  | rollback u =>
      have hne : u ≠ t := of_decide_eq_true hgoes
      exact h.of_get (Open.get_close_of_ne hne.symm) hmono

/-- The pass commits: its queue is empty. -/
theorem Due.commit {A : List AnchorRow} {events : List Server.AuditEvent}
    (h : Due A t s) (hkept : Kept s)
    (henabled : enabled s (.commit t events) = true) :
    ∀ a ∈ A, Published (next sha256 isoformat B s (.commit t events)) a.id := by
  obtain ⟨x, q, hx, hcaller, hq, hall⟩ := h
  intro a ha
  rw [next, hx]
  refine published_commit hkept (Open.has_of_get hx) ?_ rfl
  simp only [enabled, hx, hcaller, hq, Option.map_some, Option.some_inj,
    Bool.and_eq_true, decide_eq_true_eq] at henabled
  have hnil := List.length_eq_zero_iff.mp henabled.1
  rcases hall a ha with hpublished | hqueue | hrow
  · exact .inl hpublished
  · rw [hnil] at hqueue
    exact absurd hqueue List.not_mem_nil
  · exact .inr hrow

/-! ## Runs -/

/-- The backend takes every payload. -/
def Accepting (B : Backend) : Prop :=
  ∀ now d key payload, ∃ result d', B.publish now d key payload = .ok (result, d')

/-- The backend takes a payload unless another one stands at its key. -/
def Tolerant (B : Backend) : Prop :=
  ∀ now (d : Destination) key payload, (∀ bytes, d key = some bytes →
    bytes = payload) → ∃ result d', B.publish now d key payload = .ok (result, d')

theorem tolerant_filesystemBackend (directory : String) :
    Tolerant (filesystemBackend sha256 directory) := by
  intro now d key payload hsame
  show ∃ result d', filesystemPublish sha256 directory d key payload = _
  unfold filesystemPublish
  split
  · next existing hexisting =>
      rw [if_neg (not_not.mpr (hsame existing hexisting))]
      exact ⟨_, _, rfl⟩
  · exact ⟨_, _, rfl⟩

def noOutage : Action → Bool
  | .publish _ _ outage => outage.isNone
  | _ => true

theorem accepted_of_accepting {act : Action} (h : Accepting B)
    (hact : noOutage act = true) : Accepted isoformat B s act := by
  cases act with
  | publish t now outage =>
      intro x a rest _ _
      exact ⟨Option.isNone_iff_eq_none.mp hact, h _ _ _ _⟩
  | _ => trivial

/-- Where anchors are apart, nothing else stands at the key of one. -/
theorem accepted_of_tolerant {act : Action} (h : Tolerant B)
    (hconsistent : Consistent isoformat B s) (hqueued : Queued s)
    (hact : noOutage act = true) : Accepted isoformat B s act := by
  cases act with
  | publish t now outage =>
      intro x a rest hx hq
      have ha := hqueued.atLarge hx hq List.mem_cons_self
      exact ⟨Option.isNone_iff_eq_none.mp hact,
        h _ _ _ _ (hconsistent.stored a ha)⟩
  | _ => trivial

theorem accepted_run {acts : List Action} (h : Tolerant B)
    (hconsistent : Consistent isoformat B s) (hqueued : Queued s)
    (hacts : ∀ act ∈ acts, noOutage act = true)
    (hclear : (system sha256 isoformat B).Each (Clear sha256 B) s acts) :
    (system sha256 isoformat B).Each (Accepted isoformat B) s acts := by
  induction acts generalizing s with
  | nil => trivial
  | cons act acts ih =>
      obtain ⟨hconsistent', hqueued'⟩ :=
        next_consistent hconsistent hqueued hclear.1
      refine ⟨accepted_of_tolerant h hconsistent hqueued
        (hacts act List.mem_cons_self), ih hconsistent' hqueued' ?_ hclear.2⟩
      exact fun b hb => hacts b (List.mem_cons_of_mem act hb)

/-- What is published stays so. -/
theorem published_run {acts : List Action} (h : Kept s)
    (haccepted : (system sha256 isoformat B).Each (Accepted isoformat B) s acts) :
    Kept ((system sha256 isoformat B).run s acts) ∧ ∀ id, Published s id →
      Published ((system sha256 isoformat B).run s acts) id := by
  induction acts generalizing s with
  | nil => exact ⟨h, fun _ hid => hid⟩
  | cons act acts ih =>
      obtain ⟨hkept, hmono⟩ := @next_kept sha256 isoformat B s act h haccepted.1
      obtain ⟨hkept', hmono'⟩ := ih hkept haccepted.2
      exact ⟨hkept', fun id hid => hmono' id (hmono id hid)⟩

/-- A pass that goes on keeps what is due. -/
theorem due_run {A : List AnchorRow} {acts : List Action} (h : Due A t s)
    (hkept : Kept s) (hruns : (system sha256 isoformat B).runs s acts = true)
    (haccepted : (system sha256 isoformat B).Each (Accepted isoformat B) s acts)
    (hgoes : acts.all (goesOn t) = true) :
    Due A t ((system sha256 isoformat B).run s acts) := by
  induction acts generalizing s with
  | nil => exact h
  | cons act acts ih =>
      obtain ⟨henabled, hrest⟩ := System.runs_cons.mp hruns
      rw [List.all_cons, Bool.and_eq_true] at hgoes
      exact ih (h.step hkept henabled haccepted.1 hgoes.1)
        (next_kept hkept haccepted.1).1 hrest haccepted.2 hgoes.2

/-- A pass that selects and commits has published every anchor there was when
it selected. -/
theorem pass_published {pre mid post : List Action}
    {events : List Server.AuditEvent} (hkept : Kept s)
    (hruns : (system sha256 isoformat B).runs s
      (pre ++ .select t :: (mid ++ .commit t events :: post)) = true)
    (haccepted : (system sha256 isoformat B).Each (Accepted isoformat B) s
      (pre ++ .select t :: (mid ++ .commit t events :: post)))
    (hgoes : mid.all (goesOn t) = true) :
    ∀ a ∈ ((system sha256 isoformat B).run s pre).anchors,
      Published ((system sha256 isoformat B).run s
        (pre ++ .select t :: (mid ++ .commit t events :: post))) a.id := by
  intro a ha
  obtain ⟨_, hruns₁⟩ := System.runs_append.mp hruns
  obtain ⟨haccepted₀, haccepted₁⟩ := System.each_append.mp haccepted
  have hkept₁ := (published_run hkept haccepted₀).1
  obtain ⟨henabled, hruns₂⟩ := System.runs_cons.mp hruns₁
  have hkept₂ := (@next_kept sha256 isoformat B _ _ hkept₁ haccepted₁.1).1
  have hdue := @due_select sha256 isoformat B _ _ henabled
  obtain ⟨hruns₃, hruns₄⟩ := System.runs_append.mp hruns₂
  obtain ⟨haccepted₃, haccepted₄⟩ := System.each_append.mp haccepted₁.2
  have hdue₃ := due_run hdue hkept₂ hruns₃ haccepted₃ hgoes
  have hkept₃ := (published_run hkept₂ haccepted₃).1
  obtain ⟨henabled₄, _⟩ := System.runs_cons.mp hruns₄
  have hpublished := @Due.commit sha256 isoformat B _ _ _ _ hdue₃ hkept₃
    henabled₄ a ha
  have hkept₅ := (@next_kept sha256 isoformat B _ _ hkept₃ haccepted₄.1).1
  have hlast := (published_run hkept₅ haccepted₄.2).2 a.id hpublished
  rw [System.run_append, System.run_cons, System.run_append, System.run_cons]
  exact hlast

/-- In every run, from a state where anchors are apart and nothing is under
way: while every anchor is made with a key of its own, anchors with one key
have one document, which is all that stands at it; and a pass that completes
has published every anchor there was, when nothing fails and the backend takes
every payload, or else refuses different ones only and the anchors are apart. -/
theorem anchors_published_while (hconsistent : Consistent isoformat B s)
    (hidle : s.txns = {}) {acts : List Action}
    (hruns : (system sha256 isoformat B).runs s acts = true) :
    ((system sha256 isoformat B).Each (Clear sha256 B) s acts →
      Consistent isoformat B ((system sha256 isoformat B).run s acts)) ∧
    ∀ t pre mid post events,
      acts = pre ++ .select t :: (mid ++ .commit t events :: post) →
      mid.all (goesOn t) = true → (∀ act ∈ acts, noOutage act = true) →
      (Accepting B ∨ Tolerant B ∧
        (system sha256 isoformat B).Each (Clear sha256 B) s acts) →
      ∀ a ∈ ((system sha256 isoformat B).run s pre).anchors,
        Published ((system sha256 isoformat B).run s acts) a.id := by
  have hqueued : Queued s := by
    intro t x hx
    rw [hidle] at hx
    exact absurd hx Open.not_has_empty
  have hkept : Kept s := by
    intro t x hx
    rw [hidle] at hx
    exact absurd hx Open.not_has_empty
  constructor
  · intro hclear
    have hboth : Consistent isoformat B ((system sha256 isoformat B).run s acts) ∧
        Queued ((system sha256 isoformat B).run s acts) :=
      System.invariant_run
        (I := fun s => Consistent isoformat B s ∧ Queued s)
        (fun _ _ hI _ hclear => next_consistent hI.1 hI.2 hclear)
        ⟨hconsistent, hqueued⟩ hruns hclear
    exact hboth.1
  · intro t pre mid post events hacts hgoes hnoOutage hbackend
    have haccepted : (system sha256 isoformat B).Each (Accepted isoformat B) s
        acts := by
      rcases hbackend with haccepting | ⟨htolerant, hclear⟩
      · exact System.each_of_forall fun act hact s =>
          accepted_of_accepting haccepting (hnoOutage act hact)
      · exact accepted_run htolerant hconsistent hqueued hnoOutage hclear
    rw [hacts] at hruns haccepted ⊢
    exact pass_published hkept hruns haccepted hgoes

/-! ## Two anchors over the same events -/

/-- A document says the id of its anchor. -/
theorem id_of_document (h : canonicalAnchorDocument isoformat a =
    canonicalAnchorDocument isoformat b) : a.id = b.id := by
  have hdoc : SameValue (anchorDocument isoformat a)
      (anchorDocument isoformat b) := dumpsSorted_eq_iff.mp (utf8_injective h)
  obtain ⟨v, hv, hsame⟩ := @SameValue.member _ _ hdoc "anchor_id" (.str a.id)
    (by simp)
  have hid : v = .str b.id := by simpa using hv
  rw [hid] at hsame
  exact str_of_sameValue hsame

/-- Two anchors with one key conflict. -/
theorem not_consistent_of_key (ha : AtLarge s a) (hb : AtLarge s b)
    (hid : a.id ≠ b.id) (hkey : B.objectKey a = B.objectKey b) :
    ¬ Consistent isoformat B s :=
  fun h => hid (id_of_document (h.agree a b ha hb hkey))

/-- So an operator who has the chain anchored that an anchor at large covers
makes a conflict. -/
theorem not_consistent_create {id : String} {now : Int} (hb : AtLarge s b)
    (ha : newAnchor sha256 s id now = some a) (hid : b.id ≠ a.id)
    (hkey : B.objectKey b = B.objectKey a) (hfree : s.txns.get t = none) :
    ¬ Consistent isoformat B (next sha256 isoformat B s (.create t id now)) := by
  rw [next, ha]
  refine not_consistent_of_key ?_ ?_ hid hkey
  · rcases hb with hcommitted | ⟨u, x, hx, hanchor⟩
    · exact .inl hcommitted
    · refine .inr ⟨u, x, Open.has_put.mpr (.inr ⟨hx, ?_⟩), hanchor⟩
      rintro rfl
      exact Open.not_has_of_get hfree hx
  · exact .inr ⟨t, _, Open.has_put.mpr (.inl ⟨rfl, rfl⟩), rfl⟩

/-- SHA-256 of the document and the receipt of the anchor below. -/
def sampleSha256 (data : Lib.Bytes) : Lib.Bytes :=
  if data.length = 222 then
    [0x33, 0xe6, 0x33, 0x2c, 0xab, 0x17, 0xd5, 0x2c,
      0xdd, 0x11, 0x04, 0x22, 0x60, 0xb6, 0xf9, 0x9e,
      0x93, 0x1b, 0xd4, 0xd4, 0x75, 0x75, 0x3e, 0x04,
      0xc9, 0x23, 0xd6, 0xab, 0xa4, 0xdd, 0xf2, 0x51]
  else
    [0x90, 0x81, 0xb1, 0xc4, 0xfc, 0x57, 0x4c, 0x29,
      0x13, 0xc6, 0x99, 0x78, 0x4c, 0x07, 0xee, 0x19,
      0xca, 0xdf, 0xa6, 0x95, 0x3f, 0xb1, 0xd4, 0xe3,
      0x69, 0xcd, 0x7c, 0x4c, 0x98, 0x61, 0x40, 0xab]

/-- The start of a year, and a second later. -/
def sampleTime (now : Int) : String :=
  if now = 1767225600000000 then "2026-01-01T00:00:00+00:00"
  else "2026-01-01T00:00:01+00:00"

def directory : Backend := filesystemBackend sampleSha256 "/anchors"

/-- The digest of a first sign-in's document. -/
def signInDigest : Bytes :=
  [0x7d, 0x01, 0xf6, 0x89, 0xa1, 0xf8, 0x41, 0x15,
    0x73, 0x1e, 0x61, 0x1a, 0xac, 0x40, 0xd2, 0x25,
    0xa3, 0xe7, 0x1e, 0x0d, 0x2a, 0x20, 0x5c, 0x50,
    0x7f, 0x9c, 0x22, 0xef, 0x62, 0x3a, 0xe9, 0x7b]

def anchoredSignIn : Server.AuditEvent :=
  { filedSignIn "north" with eventHash := toHex signInDigest }

/-- A pass over a chain of one event, up to its commit. -/
def publishes : List Action :=
  [.grow [anchoredSignIn], .ensure 0 "a" 1767225600000000, .select 0,
    .publish 0 1767225600000000 none]

/-- The anchor `id` over the event. -/
def overSignIn (id : String) (now : Int) : AnchorRow :=
  ⟨id, now, ⟨1, "e-1", toHex signInDigest⟩⟩

theorem newAnchor_signIn {id : String} {now : Int}
    (h : s.events = [anchoredSignIn]) :
    newAnchor sampleSha256 s id now = some (overSignIn id now) := by
  have hcreate : Server.createAnchor sampleSha256 [anchoredSignIn] =
      .ok (some ⟨1, "e-1", toHex signInDigest⟩) := by decide +kernel
  rw [newAnchor, h, hcreate]
  rfl

theorem consistent_empty : Consistent sampleTime directory {} := by
  have hnone : ∀ a, ¬ AtLarge {} a := by
    rintro a (hcommitted | ⟨t, x, hx, _⟩)
    · exact absurd hcommitted List.not_mem_nil
    · exact Open.not_has_empty hx
  exact ⟨fun a _ ha => absurd ha (hnone a), fun a ha => absurd ha (hnone a)⟩

/-- Two passes, the second with nothing left to do. -/
def passes : List Action :=
  publishes ++ [.commit 0 [], .ensure 1 "b" 1767225601000000, .select 1,
    .commit 1 []]

theorem newKey_of_empty (hanchors : s.anchors = []) (htxns : s.txns = {})
    (hstored : s.stored = fun _ => none) : NewKey B s a := by
  refine ⟨?_, by rw [hstored]⟩
  rintro b (hcommitted | ⟨t, x, hx, _⟩)
  · rw [hanchors] at hcommitted
    exact absurd hcommitted List.not_mem_nil
  · rw [htxns] at hx
    exact absurd hx Open.not_has_empty

theorem anchors_published_while_passes :
    Consistent sampleTime directory
        ((system sampleSha256 sampleTime directory).run {} passes) ∧
      Published ((system sampleSha256 sampleTime directory).run {} passes) "a" := by
  have hruns : (system sampleSha256 sampleTime directory).runs {} passes =
      true := by decide +kernel
  have hclear : (system sampleSha256 sampleTime directory).Each
      (Clear sampleSha256 directory) {} passes := by
    refine ⟨trivial, fun _ _ _ => newKey_of_empty rfl rfl rfl, trivial, trivial,
      trivial, fun hcurrent => ?_, trivial, trivial, trivial⟩
    exact absurd hcurrent (by decide +kernel)
  have hanchors : ((system sampleSha256 sampleTime directory).run {}
      (publishes ++ [.commit 0 [], .ensure 1 "b" 1767225601000000])).anchors =
        [overSignIn "a" 1767225600000000] := by decide +kernel
  obtain ⟨hconsistent, hpublished⟩ :=
    anchors_published_while consistent_empty rfl hruns
  refine ⟨hconsistent hclear, ?_⟩
  refine hpublished 1 (publishes ++ [.commit 0 [], .ensure 1 "b" 1767225601000000])
    [] [] [] rfl rfl (by decide) (.inr ⟨tolerant_filesystemBackend _, hclear⟩)
    (overSignIn "a" 1767225600000000) ?_
  rw [hanchors]
  exact List.mem_singleton_self _

/-- The chain has not grown: the operator's anchor has the key of the pass's,
and so has the anchor of a pass after one that was rolled back. -/
theorem anchors_share_a_key :
    ((system sampleSha256 sampleTime directory).runs {}
        (publishes ++ [.commit 0 [], .create 1 "b" 1767225601000000]) = true ∧
      ¬ Consistent sampleTime directory
        ((system sampleSha256 sampleTime directory).run {}
          (publishes ++ [.commit 0 [], .create 1 "b" 1767225601000000]))) ∧
    ((system sampleSha256 sampleTime directory).runs {}
        (publishes ++ [.rollback 0, .ensure 1 "b" 1767225601000000]) = true ∧
      ¬ Consistent sampleTime directory
        ((system sampleSha256 sampleTime directory).run {}
          (publishes ++ [.rollback 0, .ensure 1 "b" 1767225601000000]))) := by
  refine ⟨⟨by decide +kernel, ?_⟩, by decide +kernel, ?_⟩
  · have hanchors : ((system sampleSha256 sampleTime directory).run {}
        (publishes ++ [.commit 0 []])).anchors =
          [overSignIn "a" 1767225600000000] := by decide +kernel
    have hlarge : AtLarge ((system sampleSha256 sampleTime directory).run {}
        (publishes ++ [.commit 0 []])) (overSignIn "a" 1767225600000000) := by
      left
      rw [hanchors]
      exact List.mem_singleton_self _
    have hnew : newAnchor sampleSha256
        ((system sampleSha256 sampleTime directory).run {}
          (publishes ++ [.commit 0 []])) "b" 1767225601000000 =
        some (overSignIn "b" 1767225601000000) := newAnchor_signIn rfl
    exact not_consistent_create hlarge hnew (by decide) rfl rfl
  · intro h
    have hkey : ((system sampleSha256 sampleTime directory).run {}
        (publishes ++ [.rollback 0, .ensure 1 "b" 1767225601000000])).stored
          (directory.objectKey (overSignIn "b" 1767225601000000)) =
        some (canonicalAnchorDocument sampleTime
          (overSignIn "a" 1767225600000000)) := by
      decide +kernel
    have hanchor : (((system sampleSha256 sampleTime directory).run {}
        (publishes ++ [.rollback 0, .ensure 1 "b" 1767225601000000])).txns.get
          1).map (·.anchor) = some (some (overSignIn "b" 1767225601000000)) := by
      decide +kernel
    obtain ⟨x, hx, hb⟩ := Option.map_eq_some_iff.mp hanchor
    have hsame := h.stored _ (.inr ⟨1, x, Open.has_of_get hx, hb⟩) _ hkey
    exact absurd (id_of_document hsame) (by decide)

end NodeLink.Proofs.AnchorPublications
