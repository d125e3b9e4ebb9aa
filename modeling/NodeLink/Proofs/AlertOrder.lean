import NodeLink.Server.Alerts

/-!
# What an alert says after its results

From the first failing result on, the row of an alert follows the greatest
result applied so far, whatever the order and however often each one comes. An
ok result that comes while there is no row yet is not remembered, so the state
at the end is the one of the greatest result unless the recovery was delivered
before the failure it recovers from, and not again.
-/

namespace NodeLink.Proofs

open Server

/-! ## Reading the row of an identity -/

theorem find_map_identity {f : Alert → Alert}
    (hf : ∀ b, (f b).identity = b.identity) (alerts : List Alert)
    (identity : AlertIdentity) :
    (alerts.map f).find? (fun b => decide (b.identity = identity)) =
      (alerts.find? fun b => decide (b.identity = identity)).map f := by
  rw [List.find?_map]
  congr 2
  funext b
  show decide ((f b).identity = identity) = decide (b.identity = identity)
  rw [hf b]

theorem alert_identity {db : AlertDB} {identity : AlertIdentity} {a : Alert}
    (h : db.alert identity = some a) : a.identity = identity := by
  have hp := List.find?_some h
  exact of_decide_eq_true hp

theorem alert_setAlert {db : AlertDB} {row a : Alert}
    (h : db.alert row.identity = some a) :
    (db.setAlert row).alert row.identity = some row := by
  have hkeep : ∀ b : Alert,
      (if b.identity = row.identity then row else b).identity = b.identity := by
    intro b
    by_cases hb : b.identity = row.identity
    · rw [if_pos hb, hb]
    · rw [if_neg hb]
  show (db.alerts.map _).find? _ = some row
  rw [find_map_identity hkeep]
  show Option.map _ (db.alert row.identity) = some row
  rw [h, Option.map_some, if_pos (alert_identity h)]

theorem alert_resolveSuperseded {db : AlertDB} {now : Int}
    {result : CheckResult} {identity : AlertIdentity} :
    (resolveSupersededAlerts now result identity.policyID db).alert identity =
      db.alert identity := by
  have hkeep : ∀ b : Alert,
      (if b.supersededBy result identity.policyID
        then b.supersede result now else b).identity = b.identity := by
    intro b
    by_cases hb : b.supersededBy result identity.policyID = true
    · rw [if_pos hb]
      rfl
    · rw [if_neg hb]
  show (db.alerts.map _).find? _ = db.alert identity
  rw [find_map_identity hkeep]
  show Option.map _ (db.alert identity) = db.alert identity
  cases h : db.alert identity with
  | none => rfl
  | some a =>
      have hpolicy : a.policyID = identity.policyID :=
        congrArg AlertIdentity.policyID (alert_identity h)
      have hstays : ¬ a.supersededBy result identity.policyID = true := by
        intro hs
        exact (of_decide_eq_true hs).2.2.1 hpolicy
      rw [Option.map_some, if_neg hstays]

theorem alert_ensureShell {db : AlertDB} {shell : Alert} :
    (ensureAlertShell shell db).alert shell.identity =
      some ((db.alert shell.identity).getD shell) := by
  rw [ensureAlertShell]
  split
  · next a h => rw [h, Option.getD_some]
  · next h =>
      rw [h, Option.getD_none]
      show (db.alerts ++ [shell]).find? _ = some shell
      rw [List.find?_append]
      have hnone : db.alerts.find?
          (fun alert => decide (alert.identity = shell.identity)) = none := h
      rw [hnone]
      simp

/-! ## A row that follows a result -/

/-- The row is in the state of `last`, the latest result it holds. -/
structure Reflects (a : Alert) (last : Option CheckResult) : Prop where
  state : a.state = if last.any (·.failing) then .open else .resolved
  evaluated : a.lastEvaluatedAt = last.map (·.evaluatedAt)
  result : a.lastResultID = last.map (·.id)

theorem Reflects.priorOrder {a : Alert} {last : Option CheckResult}
    (h : Reflects a last) : a.priorOrder = last.map (·.order) := by
  rw [Alert.priorOrder, h.evaluated, h.result]
  cases last with
  | none => rfl
  | some m => rfl

theorem Reflects.behind_iff {a : Alert} {last : Option CheckResult}
    (h : Reflects a last) {r : CheckResult} :
    a.behind r = true ↔ ∃ m, last = some m ∧ r.order ≤ m.order := by
  rw [Alert.behind, h.priorOrder]
  cases last with
  | none => simp
  | some m => simp

theorem reflects_countLate {a : Alert} {last : Option CheckResult}
    (h : Reflects a last) (r : CheckResult) :
    Reflects (a.countLate r) last := by
  rw [Alert.countLate]
  split
  · exact ⟨h.state, h.evaluated, h.result⟩
  · exact h

theorem reflects_recover {a : Alert} {r : CheckResult} {now : Int}
    {revisionID : String} (hr : r.failing = false) :
    Reflects ((a.seen now r revisionID).recover r) (some r) := by
  rw [Alert.recover]
  split
  · exact ⟨by simp [hr], rfl, rfl⟩
  · next hs => exact ⟨by simpa [hr, not_not] using hs, rfl, rfl⟩

theorem reflects_raise {a : Alert} {last : Option CheckResult}
    {r : CheckResult} {now : Int} {revisionID : String}
    {windows : List MaintenanceWindow} (h : Reflects a last)
    (hr : r.failing = true) :
    Reflects (((a.seen now r revisionID).suppress windows).raise r)
      (some r) := by
  rw [Alert.raise]
  split
  · exact ⟨by simp [hr], rfl, rfl⟩
  · next hs =>
      refine ⟨?_, rfl, rfl⟩
      have hstate : a.state ≠ .resolved := hs
      show a.state = _
      rw [Option.any_some, hr, if_pos rfl]
      rw [h.state] at hstate ⊢
      by_cases hany : last.any (·.failing) = true
      · rw [if_pos hany]
      · rw [if_neg hany] at hstate
        exact absurd rfl hstate

/-! ## The results a row has heard -/

/-- The results of one endpoint, policy revision and check key. -/
structure Concerns (identity : AlertIdentity) (revisionID : String)
    (r : CheckResult) : Prop where
  agent : r.agentID = identity.agentID
  policy : r.policyID = some identity.policyID
  revision : r.policyRevisionID = some revisionID
  key : r.checkKey = identity.checkKey

/-- What the row of an identity has heard of the results delivered: those from
the first failing one on. -/
def heard (rs : List CheckResult) : List CheckResult :=
  rs.dropWhile fun r => !r.failing

theorem heard_concat (rs : List CheckResult) (r : CheckResult) :
    heard (rs ++ [r]) =
      if heard rs = [] ∧ r.failing = false then [] else heard rs ++ [r] := by
  rw [heard, heard, List.dropWhile_append]
  by_cases hn : rs.dropWhile (fun r => !r.failing) = []
  · rw [if_pos (List.isEmpty_iff.mpr hn), hn]
    cases hr : r.failing with
    | true => simp [hr]
    | false => simp [hr]
  · rw [if_neg (fun h => hn (List.isEmpty_iff.mp h)),
      if_neg (fun h => hn h.1)]

theorem mem_of_mem_heard {rs : List CheckResult} {r : CheckResult}
    (h : r ∈ heard rs) : r ∈ rs :=
  (List.dropWhile_suffix _).subset h

/-- The row and the observations agree with what was heard; `mine` are the
identifiers of the results under way. -/
structure Hears (identity : AlertIdentity) (mine : String → Prop)
    (db : AlertDB) (rs : List CheckResult) : Prop where
  blank : rs = [] → db.alert identity = none
  row : rs ≠ [] → ∃ a, db.alert identity = some a ∧
    Reflects a (rs.argmax CheckResult.order)
  observed : ∀ id, mine id → (db.observed id = true ↔ ∃ r ∈ rs, r.id = id)
  placed : ∃ site, db.directory.agentSite identity.agentID = some site

theorem argmax_concat_behind {rs : List CheckResult} {r m : CheckResult}
    (hm : rs.argmax CheckResult.order = some m) (h : r.order ≤ m.order) :
    (rs ++ [r]).argmax CheckResult.order = some m := by
  rw [List.argmax_concat, hm]
  exact if_neg (not_lt.mpr h)

theorem argmax_concat_ahead {rs : List CheckResult} {r : CheckResult}
    (h : ¬ ∃ m, rs.argmax CheckResult.order = some m ∧ r.order ≤ m.order) :
    (rs ++ [r]).argmax CheckResult.order = some r := by
  rw [List.argmax_concat]
  cases hm : rs.argmax CheckResult.order with
  | none => rfl
  | some m =>
      have hlt : m.order < r.order :=
        lt_of_not_ge fun hle => h ⟨m, hm, hle⟩
      exact if_pos hlt

theorem observed_observe {db : AlertDB} {o : AlertObservation} {id : String} :
    (db.observe o).observed id = true ↔
      db.observed id = true ∨ o.checkResultID = id := by
  simp [AlertDB.observe, AlertDB.observed]

/-! ## One application -/

section Application

variable {identity : AlertIdentity} {revisionID : String}
variable {db : AlertDB} {r : CheckResult} {now : Int} {uuid : String}

theorem alert_prepare (hr : Concerns identity revisionID r) :
    (prepareAlert now uuid r identity.policyID revisionID db).alert identity =
      if r.failing then some ((db.alert identity).getD
        (alertShell now uuid r identity.policyID revisionID))
      else db.alert identity := by
  have hshell : (alertShell now uuid r identity.policyID revisionID).identity
      = identity := by
    show AlertIdentity.mk r.agentID identity.policyID r.checkKey = identity
    rw [hr.agent, hr.key]
  rw [prepareAlert]
  split
  · have h := @alert_ensureShell
      (resolveSupersededAlerts now r identity.policyID db)
      (alertShell now uuid r identity.policyID revisionID)
    rw [hshell, alert_resolveSuperseded] at h
    exact h
  · exact alert_resolveSuperseded

theorem prepare_observations {policyID : String} :
    (prepareAlert now uuid r policyID revisionID db).observations =
      db.observations := by
  rw [prepareAlert]
  split
  · rw [ensureAlertShell]
    split
    · rfl
    · rfl
  · rfl

theorem prepare_directory {policyID : String} :
    (prepareAlert now uuid r policyID revisionID db).directory =
      db.directory := by
  rw [prepareAlert]
  split
  · rw [ensureAlertShell]
    split
    · rfl
    · rfl
  · rfl

/-- The row once `row` is written over it, the result being noted. -/
theorem alert_written {a row : Alert} {o : AlertObservation}
    (ha : db.alert identity = some a) (hrow : row.identity = identity) :
    ((db.observe o).setAlert row).alert identity = some row := by
  have h : (db.observe o).alert row.identity = some a := hrow ▸ ha
  exact hrow ▸ alert_setAlert h

theorem identity_countLate (a : Alert) (r : CheckResult) :
    (a.countLate r).identity = a.identity := by
  rw [Alert.countLate]
  split
  · rfl
  · rfl

theorem identity_recover (a : Alert) (r : CheckResult) :
    (a.recover r).identity = a.identity := by
  rw [Alert.recover]
  split
  · rfl
  · rfl

theorem identity_raise (a : Alert) (r : CheckResult) :
    (a.raise r).identity = a.identity := by
  rw [Alert.raise]
  split
  · rfl
  · rfl

/-- A new result leaves the row with the greatest of the results heard. -/
theorem applyToAlert_reflects {zones : ZoneTable} {a : Alert}
    {rs : List CheckResult} {site : String}
    (ha : db.alert identity = some a)
    (hrow : Reflects a (rs.argmax CheckResult.order))
    (hagent : r.agentID = identity.agentID)
    (hsite : db.directory.agentSite identity.agentID = some site) :
    ∃ db', applyToAlert zones now r revisionID a db = .ok db' ∧
      (∃ a', db'.alert identity = some a' ∧
        Reflects a' ((rs ++ [r]).argmax CheckResult.order)) ∧
      (∀ id, db'.observed id = true ↔ db.observed id = true ∨ r.id = id) ∧
      db'.directory = db.directory := by
  have hid := alert_identity ha
  rw [applyToAlert]
  by_cases hbehind : a.behind r = true
  · obtain ⟨m, hm, hle⟩ := hrow.behind_iff.mp hbehind
    rw [if_pos hbehind]
    refine ⟨_, rfl, ⟨a.countLate r, ?_, ?_⟩, fun id => observed_observe, rfl⟩
    · exact alert_written ha ((identity_countLate a r).trans hid)
    · rw [argmax_concat_behind hm hle, ← hm]
      exact reflects_countLate hrow r
  · have hahead := argmax_concat_ahead (fun h => hbehind (hrow.behind_iff.mpr h))
    rw [if_neg hbehind, hahead]
    cases hfail : r.failing with
    | true =>
        rw [if_pos rfl, hagent, hsite]
        have hwritten := @alert_written identity db a _ (observation now a r false)
          ha ((identity_raise ((a.seen now r revisionID).suppress
            (activeMaintenanceWindows zones db.directory db.windows
              ⟨identity.agentID, site⟩ r.evaluatedAt)) r).trans hid)
        exact ⟨_, rfl, ⟨_, hwritten, reflects_raise hrow hfail⟩,
          fun id => observed_observe, rfl⟩
    | false =>
        rw [if_neg Bool.false_ne_true]
        have hwritten := @alert_written identity db a _ (observation now a r false)
          ha ((identity_recover (a.seen now r revisionID) r).trans hid)
        exact ⟨_, rfl, ⟨_, hwritten, reflects_recover hfail⟩,
          fun id => observed_observe, rfl⟩

/-- A result heard before changes nothing that is followed. -/
theorem argmax_heard_again {rs : List CheckResult} (h : r ∈ rs) :
    (rs ++ [r]).argmax CheckResult.order = rs.argmax CheckResult.order := by
  cases hm : rs.argmax CheckResult.order with
  | none =>
      rw [List.argmax_eq_none.mp hm] at h
      exact absurd h List.not_mem_nil
  | some m => exact argmax_concat_behind hm (List.le_of_mem_argmax h hm)

theorem Hears.apply {zones : ZoneTable} {mine : String → Prop}
    {rs : List CheckResult} (h : Hears identity mine db rs)
    (hr : Concerns identity revisionID r) (hmine : mine r.id)
    (hids : ∀ s ∈ rs, s.id = r.id → s = r) :
    ∃ db', applyCheckResultToAlert zones now uuid r db = .ok db' ∧
      Hears identity mine db'
        (if rs = [] ∧ r.failing = false then [] else rs ++ [r]) := by
  obtain ⟨site, hsite⟩ := h.placed
  have hprep := @alert_prepare _ _ db _ now uuid hr
  have hobs := @prepare_observations revisionID db r now uuid identity.policyID
  have hdir := @prepare_directory revisionID db r now uuid identity.policyID
  have hlook : (⟨r.agentID, identity.policyID, r.checkKey⟩ : AlertIdentity) =
      identity := by rw [hr.agent, hr.key]
  rw [applyCheckResultToAlert, hr.policy, hr.revision]
  simp only [hlook]
  generalize prepareAlert now uuid r identity.policyID revisionID db = prep
    at hprep hobs hdir
  have hobserved : ∀ id, prep.observed id = db.observed id := by
    intro id
    rw [AlertDB.observed, hobs]
    rfl
  by_cases hquiet : rs = [] ∧ r.failing = false
  · -- no row yet, and none is made for an ok result
    have hnone : prep.alert identity = none := by
      rw [hprep, hquiet.2, if_neg Bool.false_ne_true, h.blank hquiet.1]
    simp only [hnone, if_pos hquiet]
    refine ⟨prep, rfl, fun _ => hnone, fun hne => absurd rfl hne, ?_, ?_⟩
    · intro id hid
      rw [hobserved, h.observed id hid, hquiet.1]
    · rw [hdir]
      exact h.placed
  · rw [if_neg hquiet]
    have hrow : ∃ a, prep.alert identity = some a ∧
        Reflects a (rs.argmax CheckResult.order) := by
      by_cases hrs : rs = []
      · have hfail : r.failing = true := by
          cases hr' : r.failing with
          | true => rfl
          | false => exact absurd ⟨hrs, hr'⟩ hquiet
        rw [hprep, hfail, if_pos rfl, h.blank hrs, hrs]
        exact ⟨_, rfl, rfl, rfl, rfl⟩
      · obtain ⟨a, ha, hreflects⟩ := h.row hrs
        refine ⟨a, ?_, hreflects⟩
        rw [hprep, ha, Option.getD_some, ite_self]
    obtain ⟨a, ha, hreflects⟩ := hrow
    simp only [ha]
    by_cases hdup : prep.observed r.id = true
    · -- the result has been applied before
      have hmem : r ∈ rs := by
        rw [hobserved, h.observed r.id hmine] at hdup
        obtain ⟨s, hs, hsid⟩ := hdup
        exact hids s hs hsid ▸ hs
      rw [if_pos hdup]
      refine ⟨prep, rfl, fun he => absurd he (by simp), fun _ => ⟨a, ha, ?_⟩,
        ?_, ?_⟩
      · rw [argmax_heard_again hmem]
        exact hreflects
      · intro id hid
        rw [hobserved, h.observed id hid]
        simp only [List.mem_append, List.mem_singleton, or_and_right,
          exists_or, exists_eq_left]
        constructor
        · exact Or.inl
        · intro hor
          rcases hor with hin | rfl
          · exact hin
          · exact ⟨r, hmem, rfl⟩
      · rw [hdir]
        exact h.placed
    · rw [if_neg hdup]
      obtain ⟨db', hok, hrow', hseen, hdir'⟩ := @applyToAlert_reflects
        identity revisionID prep r now zones a rs site ha hreflects hr.agent
        (by rw [hdir]; exact hsite)
      refine ⟨db', hok, fun he => absurd he (by simp), fun _ => hrow', ?_, ?_⟩
      · intro id hid
        rw [hseen, hobserved, h.observed id hid]
        simp only [List.mem_append, List.mem_singleton, or_and_right,
          exists_or, exists_eq_left]
      · rw [hdir', hdir]
        exact h.placed

end Application

/-! ## A run of deliveries -/

theorem heard_snoc_eq (rs : List CheckResult) (r : CheckResult) :
    (if heard rs = [] ∧ r.failing = false then [] else heard rs ++ [r]) =
      heard (rs ++ [r]) := (heard_concat rs r).symm

/-- An identifier belongs to one result. -/
def DistinctIDs (rs : List CheckResult) : Prop :=
  ∀ r ∈ rs, ∀ s ∈ rs, r.id = s.id → r = s

theorem Hears.applyAll {identity : AlertIdentity} {revisionID : String}
    {zones : ZoneTable} {mine : String → Prop} {db : AlertDB}
    {rs : List CheckResult} {ds : List ResultDelivery}
    (h : Hears identity mine db (heard rs))
    (hof : ∀ d ∈ ds, Concerns identity revisionID d.result)
    (hmine : ∀ d ∈ ds, mine d.result.id)
    (hids : DistinctIDs (rs ++ ds.map (·.result))) :
    ∃ db', applyDeliveries zones ds db = .ok db' ∧
      Hears identity mine db' (heard (rs ++ ds.map (·.result))) := by
  induction ds generalizing db rs with
  | nil =>
      rw [List.map_nil, List.append_nil]
      exact ⟨db, rfl, h⟩
  | cons d ds ih =>
      have hd := List.mem_cons_self (a := d) (l := ds)
      have hcons : rs ++ (d :: ds).map (·.result) =
          rs ++ [d.result] ++ ds.map (·.result) := by simp
      rw [hcons] at hids ⊢
      have hlast : d.result ∈ rs ++ [d.result] ++ ds.map (·.result) := by simp
      obtain ⟨db₁, hok, hnext⟩ := @Hears.apply identity revisionID db d.result
        d.now d.uuid zones mine (heard rs) h (hof d hd) (hmine d hd)
        (fun s hs hsid =>
          hids s (by simp [mem_of_mem_heard hs]) d.result hlast hsid)
      rw [heard_snoc_eq] at hnext
      obtain ⟨db', hrest, hfinal⟩ := ih hnext
        (fun e he => hof e (List.mem_cons_of_mem _ he))
        (fun e he => hmine e (List.mem_cons_of_mem _ he)) hids
      refine ⟨db', ?_, hfinal⟩
      rw [applyDeliveries, List.foldlM_cons, hok]
      exact hrest

/-! ## The greatest result -/

/-- The alert of an identity is open. -/
def IsOpen (db : AlertDB) (identity : AlertIdentity) : Prop :=
  ∃ a, db.alert identity = some a ∧ a.state = .open

/-- The greatest of the results is failing. -/
def LatestFails (rs : List CheckResult) : Prop :=
  ∃ r ∈ rs, r.failing = true ∧ ∀ s ∈ rs, s.order ≤ r.order

/-- Some ok result later than every failing one is delivered after a failing
one. -/
def RecoveryHeard (rs : List CheckResult) : Prop :=
  ∃ before r after, rs = before ++ r :: after ∧
    (∃ f ∈ before, f.failing = true) ∧ r.failing = false ∧
    ∀ f ∈ rs, f.failing = true → f.order < r.order

/-- What the order of delivery has to be like for the state at the end to be
that of the greatest result. -/
def InTime (rs : List CheckResult) : Prop :=
  (∀ r ∈ rs, r.failing = false) ∨ LatestFails rs ∨ RecoveryHeard rs

theorem eq_of_order_eq {rs : List CheckResult} (hids : DistinctIDs rs)
    {r s : CheckResult} (hr : r ∈ rs) (hs : s ∈ rs) (h : r.order = s.order) :
    r = s := by
  have hpair : (r.evaluatedAt, r.id) = (s.evaluatedAt, s.id) :=
    toLex.injective h
  exact hids r hr s hs (Prod.mk.inj hpair).2

theorem exists_argmax {rs : List CheckResult} (h : rs ≠ []) :
    ∃ m, rs.argmax CheckResult.order = some m := by
  cases hm : rs.argmax CheckResult.order with
  | none => exact absurd (List.argmax_eq_none.mp hm) h
  | some m => exact ⟨m, rfl⟩

theorem mem_heard_of_failing {rs : List CheckResult} {f : CheckResult}
    (hf : f ∈ rs) (hfail : f.failing = true) : f ∈ heard rs := by
  rw [← List.takeWhile_append_dropWhile (p := fun r => !r.failing) (l := rs),
    List.mem_append] at hf
  rcases hf with htake | hdrop
  · have hok := List.all_eq_true.mp (List.all_takeWhile (p := _)) f htake
    rw [hfail] at hok
    cases hok
  · exact hdrop

theorem open_iff_latest {db : AlertDB} {identity : AlertIdentity}
    {mine : String → Prop} {rs : List CheckResult}
    (h : Hears identity mine db rs) (hids : DistinctIDs rs) :
    IsOpen db identity ↔ LatestFails rs := by
  by_cases hrs : rs = []
  · constructor
    · intro ⟨a, ha, _⟩
      rw [h.blank hrs] at ha
      cases ha
    · intro ⟨r, hr, _⟩
      rw [hrs] at hr
      exact absurd hr List.not_mem_nil
  · obtain ⟨a, ha, hreflects⟩ := h.row hrs
    obtain ⟨m, hm⟩ := exists_argmax hrs
    have hmem := List.argmax_mem hm
    have hstate := hreflects.state
    rw [hm, Option.any_some] at hstate
    constructor
    · intro ⟨b, hb, hopen⟩
      rw [ha] at hb
      obtain rfl := Option.some.inj hb
      rw [hstate] at hopen
      refine ⟨m, hmem, ?_, fun s hs => List.le_of_mem_argmax hs hm⟩
      by_contra hok
      rw [if_neg hok] at hopen
      cases hopen
    · intro ⟨r, hr, hfail, hmax⟩
      have heq : m = r := eq_of_order_eq hids hmem hr
        (le_antisymm (hmax m hmem) (List.le_of_mem_argmax hr hm))
      refine ⟨a, ha, ?_⟩
      rw [hstate, heq, if_pos hfail]

theorem latestFails_heard {rs : List CheckResult} (h : LatestFails rs) :
    LatestFails (heard rs) := by
  obtain ⟨r, hr, hfail, hmax⟩ := h
  exact ⟨r, mem_heard_of_failing hr hfail, hfail,
    fun s hs => hmax s (mem_of_mem_heard hs)⟩

/-- An ok result among those heard comes after a failing one. -/
theorem after_failing_of_heard {rs : List CheckResult} {m : CheckResult}
    (hm : m ∈ heard rs) (hok : m.failing = false) :
    ∃ before after, rs = before ++ m :: after ∧
      ∃ f ∈ before, f.failing = true := by
  have hsplit : rs.takeWhile (fun r => !r.failing) ++ heard rs = rs :=
    List.takeWhile_append_dropWhile
  cases hh : heard rs with
  | nil =>
      rw [hh] at hm
      exact absurd hm List.not_mem_nil
  | cons f rest =>
      have hfail : f.failing = true := by
        have hne : heard rs ≠ [] := by simp [hh]
        have hhead : (!((heard rs).head hne).failing) = false :=
          List.head_dropWhile_not _ hne
        simpa [hh] using hhead
      rw [hh] at hm hsplit
      rcases List.mem_cons.mp hm with rfl | hrest
      · rw [hok] at hfail
        cases hfail
      · obtain ⟨as, bs, hbs⟩ := List.append_of_mem hrest
        refine ⟨rs.takeWhile (fun r => !r.failing) ++ f :: as, bs, ?_, f, ?_,
          hfail⟩
        · rw [hbs] at hsplit
          rw [List.append_assoc, List.cons_append]
          exact hsplit.symm
        · simp

theorem heard_of_after_failing {before after : List CheckResult}
    {r f : CheckResult} (hf : f ∈ before) (hfail : f.failing = true) :
    r ∈ heard (before ++ r :: after) := by
  have hne : (before.dropWhile fun r => !r.failing) ≠ [] := by
    intro hnil
    have hmem := mem_heard_of_failing hf hfail
    rw [heard, hnil] at hmem
    exact absurd hmem List.not_mem_nil
  rw [heard, List.dropWhile_append,
    if_neg (fun h => hne (List.isEmpty_iff.mp h))]
  simp

/-- What was heard says the same of the greatest result as all results do
exactly when the recovery came in time. -/
theorem heard_latest_iff {rs : List CheckResult} (hids : DistinctIDs rs) :
    (LatestFails (heard rs) ↔ LatestFails rs) ↔ InTime rs := by
  constructor
  · intro hiff
    by_cases hlatest : LatestFails rs
    · exact .inr (.inl hlatest)
    by_cases hquiet : ∀ r ∈ rs, r.failing = false
    · exact .inl hquiet
    right
    right
    obtain ⟨f, hf, hfail⟩ : ∃ f ∈ rs, f.failing = true := by
      by_contra hno
      refine hquiet fun r hr => ?_
      by_contra hfail
      exact hno ⟨r, hr, by simpa using hfail⟩
    have hne : heard rs ≠ [] := by
      intro hnil
      have hmem := mem_heard_of_failing hf hfail
      rw [hnil] at hmem
      exact absurd hmem List.not_mem_nil
    obtain ⟨m, hm⟩ := exists_argmax hne
    have hmem := List.argmax_mem hm
    have hok : m.failing = false := by
      by_contra hmfail
      exact hlatest (hiff.mp ⟨m, hmem, by simpa using hmfail,
        fun s hs => List.le_of_mem_argmax hs hm⟩)
    obtain ⟨before, after, hsplit, hbefore⟩ := after_failing_of_heard hmem hok
    refine ⟨before, m, after, hsplit, hbefore, hok, ?_⟩
    intro g hg hgfail
    refine lt_of_le_of_ne
      (List.le_of_mem_argmax (mem_heard_of_failing hg hgfail) hm) ?_
    intro heq
    rw [eq_of_order_eq hids hg (mem_of_mem_heard hmem) heq, hok] at hgfail
    cases hgfail
  · intro htime
    refine ⟨?_, latestFails_heard⟩
    intro ⟨r, hr, hfail, hmax⟩
    rcases htime with hquiet | hlatest | hrecovery
    · rw [hquiet r (mem_of_mem_heard hr)] at hfail
      cases hfail
    · exact hlatest
    · obtain ⟨before, m, after, hsplit, ⟨f, hf, hffail⟩, _, habove⟩ := hrecovery
      have hheard : m ∈ heard rs := by
        rw [hsplit]
        exact heard_of_after_failing hf hffail
      exact absurd (habove r (mem_of_mem_heard hr) hfail)
        (not_lt.mpr (hmax m hheard))

/-- Nothing is known of an endpoint's check yet: the endpoint is there, its
alert has no row and none of the results has been applied. -/
structure Unheard (db : AlertDB) (identity : AlertIdentity)
    (ds : List ResultDelivery) : Prop where
  placed : ∃ site, db.directory.agentSite identity.agentID = some site
  blank : db.alert identity = none
  unseen : ∀ d ∈ ds, db.observed d.result.id = false

/-- The alert is open at the end exactly when the greatest result is failing,
if and only if the deliveries are in time. -/
theorem applyDeliveries_open_iff {zones : ZoneTable} {db : AlertDB}
    {identity : AlertIdentity} {revisionID : String}
    {ds : List ResultDelivery}
    (hof : ∀ d ∈ ds, Concerns identity revisionID d.result)
    (hids : DistinctIDs (ds.map (·.result))) (hnew : Unheard db identity ds) :
    ∃ db', applyDeliveries zones ds db = .ok db' ∧
      ((IsOpen db' identity ↔ LatestFails (ds.map (·.result))) ↔
        InTime (ds.map (·.result))) := by
  have hstart : Hears identity (fun id => ∃ d ∈ ds, d.result.id = id) db
      (heard []) := by
    refine ⟨fun _ => hnew.blank, fun hne => absurd rfl hne, ?_, hnew.placed⟩
    intro id ⟨d, hd, hid⟩
    rw [← hid, hnew.unseen d hd]
    simp [heard]
  obtain ⟨db', hok, hhears⟩ := hstart.applyAll hof (fun d hd => ⟨d, hd, rfl⟩)
    hids
  rw [List.nil_append] at hhears
  refine ⟨db', hok, ?_⟩
  rw [open_iff_latest hhears (fun r hr s hs => hids r (mem_of_mem_heard hr) s
    (mem_of_mem_heard hs))]
  exact heard_latest_iff hids

/-! ## A recovery delivered first -/

def diskCheck : AlertIdentity := ⟨"agent-1", "policy-1", "disk"⟩

/-- The endpoint is placed at a site; there is nothing else. -/
def quietFleet : AlertDB where
  directory := ⟨fun id => if id = "agent-1" then some "site-1" else none,
    fun _ => some "client-1"⟩
  windows := []
  alerts := []
  observations := []
  events := []

def diskResult (id : String) (status : CheckResultStatus) (evaluatedAt : Int) :
    ResultDelivery where
  result := { id, agentID := "agent-1", policyID := some "policy-1"
              policyRevisionID := some "revision-1", checkKey := "disk"
              status, value := none, evaluatedAt }
  now := 30
  uuid := "alert-1"

/-- The failure of instant 10 arrives after the recovery of instant 20. -/
def recoveryFirst : List ResultDelivery :=
  [diskResult "result-2" .ok 20, diskResult "result-1" .critical 10]

def failureFirst : List ResultDelivery :=
  [diskResult "result-1" .critical 10, diskResult "result-2" .ok 20]

theorem recoveryFirst_opens :
    ((applyDeliveries (fun _ => none) recoveryFirst quietFleet).toOption.bind
      (·.alert diskCheck)).map (·.state) = some .open := by
  decide +kernel

/-- The alert is open although the greatest result is ok. -/
theorem recovery_first_stays_open :
    Unheard quietFleet diskCheck recoveryFirst ∧
    DistinctIDs (recoveryFirst.map (·.result)) ∧
    ∃ db', applyDeliveries (fun _ => none) recoveryFirst quietFleet = .ok db' ∧
      IsOpen db' diskCheck ∧ ¬ LatestFails (recoveryFirst.map (·.result)) := by
  refine ⟨⟨⟨"site-1", rfl⟩, rfl, fun _ _ => rfl⟩, ?_, ?_⟩
  · intro r hr s hs hid
    simp only [recoveryFirst, List.map_cons, List.map_nil, List.mem_cons,
      List.not_mem_nil, or_false] at hr hs
    rcases hr with rfl | rfl <;> rcases hs with rfl | rfl
    · rfl
    · exact absurd hid (by decide)
    · exact absurd hid (by decide)
    · rfl
  · have hopens := recoveryFirst_opens
    cases happlied : applyDeliveries (fun _ => none) recoveryFirst quietFleet with
    | error e =>
        rw [happlied] at hopens
        cases hopens
    | ok db =>
        rw [happlied] at hopens
        refine ⟨db, rfl, ?_, ?_⟩
        · obtain ⟨a, ha, hstate⟩ := Option.map_eq_some_iff.mp hopens
          exact ⟨a, ha, hstate⟩
        · intro ⟨r, hr, hfail, hmax⟩
          simp only [recoveryFirst, List.map_cons, List.map_nil, List.mem_cons,
            List.not_mem_nil, or_false] at hr
          rcases hr with rfl | rfl
          · cases hfail
          · exact absurd (hmax (diskResult "result-2" .ok 20).result
              List.mem_cons_self) (by decide)

theorem applyDeliveries_open_iff_failureFirst :
    ∃ db', applyDeliveries (fun _ => none) failureFirst quietFleet = .ok db' ∧
      ((IsOpen db' diskCheck ↔ LatestFails (failureFirst.map (·.result))) ↔
        InTime (failureFirst.map (·.result))) := by
  refine @applyDeliveries_open_iff _ _ _ "revision-1" _ ?_ ?_
    ⟨⟨"site-1", rfl⟩, rfl, fun _ _ => rfl⟩
  · intro d hd
    simp only [failureFirst, List.mem_cons, List.not_mem_nil, or_false] at hd
    rcases hd with rfl | rfl <;> exact ⟨rfl, rfl, rfl, rfl⟩
  · intro r hr s hs hid
    simp only [failureFirst, List.map_cons, List.map_nil, List.mem_cons,
      List.not_mem_nil, or_false] at hr hs
    rcases hr with rfl | rfl <;> rcases hs with rfl | rfl
    · rfl
    · exact absurd hid (by decide)
    · exact absurd hid (by decide)
    · rfl

end NodeLink.Proofs
