import Mathlib.Data.List.Dedup
import NodeLink.Proofs.AlertOrder
import NodeLink.Server.AlertActions

/-!
# The books of an alert

Results are recorded and applied in any order and more than once, policies are
revised and deleted, operators act. Whatever the order, the lifetime counter of
an alert is the number of distinct failing results applied to it, its
generation is the number of times it was opened, and its events lead from state
to state to the one it is in.
-/

namespace NodeLink.Proofs.AlertBook

open Server

/-! ## Runs -/

/-- The tables, with the results that were applied, repetitions included. -/
structure Book where
  db : MonitoringDB
  applied : List CheckResult := []

inductive BookEvent where
  | record (now : Int) (resultUUID uuid : String) (request : RecordRequest)
  /-- A stored result is applied once more. -/
  | applyAgain (now : Int) (uuid resultID : String)
  | revise (policyID : String) (enabled : Bool) (checks : List (String × Bool))
      (now : Int)
  | delete (policyID : String) (now : Int)
  | acknowledge (action : AlertAction)
  | assign (assignment : Assignment) (action : AlertAction)
  | comment (action : AlertAction)
  | resolve (action : AlertAction)
  /-- Endpoints, sites and maintenance windows change. -/
  | surroundings (directory : Directory) (windows : List MaintenanceWindow)

namespace Book

def setAlerts (b : Book) (alertDB : AlertDB) : Book :=
  { b with db := { b.db with alertDB } }

/-- An operator's request; a refusal changes nothing. -/
def acted (b : Book) (answer : Except AlertActionError AlertDB) : Book :=
  match answer with
  | .error _ => b
  | .ok alertDB => b.setAlerts alertDB

def step (zones : ZoneTable) (b : Book) : BookEvent → Book
  | .record now resultUUID uuid request =>
    match recordCheckResult zones now resultUUID uuid request b.db with
    | .error _ => b
    | .ok db =>
      { db
        applied :=
          if request.alertOnUnknown ∨ request.status ≠ .unknown then
            b.applied ++ [request.row now resultUUID]
          else b.applied }
  | .applyAgain now uuid resultID =>
    match b.db.results.find? fun r => decide (r.id = resultID) with
    | none => b
    | some r =>
      match applyResult zones now uuid r b.db.alertDB with
      | .error _ => b
      | .ok alertDB =>
        { b.setAlerts alertDB with applied := b.applied ++ [r] }
  | .revise policyID enabled checks now =>
    b.setAlerts (resolvePolicyAlerts .revised policyID
      (activeCheckKeys enabled checks) now b.db.alertDB)
  | .delete policyID now =>
    b.setAlerts (resolvePolicyAlerts .deleted policyID [] now b.db.alertDB)
  | .acknowledge action =>
    b.acted (acknowledgeMonitoringAlert action b.db.alertDB)
  | .assign assignment action =>
    b.acted (assignMonitoringAlert assignment action b.db.alertDB)
  | .comment action => b.acted (commentOnMonitoringAlert action b.db.alertDB)
  | .resolve action => b.acted (resolveMonitoringAlert action b.db.alertDB)
  | .surroundings directory windows =>
    b.setAlerts { b.db.alertDB with directory, windows }

def run (zones : ZoneTable) (b : Book) (events : List BookEvent) : Book :=
  events.foldl (step zones) b

/-- No alerts and no results yet. -/
def blank (directory : Directory) (windows : List MaintenanceWindow) : Book where
  db :=
    { alertDB := ⟨directory, windows, [], [], []⟩
      results := [] }

end Book

/-! ## What the books say of one alert -/

/-- The events lead from one state to the next, and to the last. -/
def Path : AlertState → List AlertEvent → AlertState → Prop
  | s, [], t => s = t
  | s, e :: events, t => e.fromState = s ∧ Path e.toState events t

def opens (event : AlertEvent) : Bool :=
  decide (event.eventType = .opened ∨ event.eventType = .reopened)

def eventsOf (db : AlertDB) (alertID : String) : List AlertEvent :=
  db.events.filter fun event => decide (event.alertID = alertID)

/-- The failing results noted for an alert. -/
def failuresIn (observations : List AlertObservation) (alertID : String) :
    List AlertObservation :=
  observations.filter fun o => decide (o.alertID = alertID ∧ o.status ≠ .ok)

structure Booked (db : AlertDB) (a : Alert) : Prop where
  total : a.totalOccurrenceCount = (failuresIn db.observations a.id).length
  generation : a.generation = ((eventsOf db a.id).filter opens).length
  path : Path .resolved (eventsOf db a.id) a.state

/-- Every alert is booked, and events and observations are of alerts that
exist. -/
structure Kept (db : AlertDB) : Prop where
  identities : (db.alerts.map Alert.identity).Nodup
  ids : (db.alerts.map Alert.id).Nodup
  booked : ∀ a ∈ db.alerts, Booked db a
  events : ∀ e ∈ db.events, ∃ a ∈ db.alerts, a.id = e.alertID
  observations : ∀ o ∈ db.observations, ∃ a ∈ db.alerts, a.id = o.alertID

/-- What a change does to a row, its events and its count of failures. -/
structure Moves (a a' : Alert) (events : List AlertEvent) (failures : Nat) :
    Prop where
  identity : a'.identity = a.identity
  id : a'.id = a.id
  own : ∀ e ∈ events, e.alertID = a.id
  path : Path a.state events a'.state
  generation : a'.generation = a.generation + (events.filter opens).length
  total : a'.totalOccurrenceCount = a.totalOccurrenceCount + failures

/-- Of no events, each is of the alert. -/
theorem own_nil (a : Alert) : ∀ e ∈ ([] : List AlertEvent), e.alertID = a.id :=
  fun _ he => absurd he List.not_mem_nil

theorem Moves.refl (a : Alert) : Moves a a [] 0 :=
  ⟨rfl, rfl, own_nil a, rfl, rfl, rfl⟩

theorem Path.append {s t u : AlertState} {l m : List AlertEvent}
    (hl : Path s l t) (hm : Path t m u) : Path s (l ++ m) u := by
  induction l generalizing s with
  | nil => exact (show s = t from hl) ▸ hm
  | cons e l ih => exact ⟨hl.1, ih hl.2⟩

/-! ## Lists of rows -/

/-- The events one change writes for each row, gathered for one row. -/
theorem filter_flatMap_own {l : List Alert} {events : Alert → List AlertEvent}
    (hids : (l.map Alert.id).Nodup)
    (hown : ∀ a ∈ l, ∀ e ∈ events a, e.alertID = a.id) {a : Alert}
    (ha : a ∈ l) :
    (l.flatMap events).filter (fun e => decide (e.alertID = a.id)) =
      events a := by
  induction l with
  | nil => cases ha
  | cons b l ih =>
      obtain ⟨hb, hl⟩ := List.nodup_cons.mp hids
      rw [List.flatMap_cons, List.filter_append]
      have hrest : ∀ c ∈ l, ∀ e ∈ events c, e.alertID = c.id :=
        fun c hc => hown c (List.mem_cons_of_mem _ hc)
      by_cases hab : a = b
      · subst hab
        have hall : (events a).filter (fun e => decide (e.alertID = a.id)) =
            events a :=
          List.filter_eq_self.mpr fun e he =>
            decide_eq_true (hown a List.mem_cons_self e he)
        have hnone : (l.flatMap events).filter
            (fun e => decide (e.alertID = a.id)) = [] := by
          refine List.filter_eq_nil_iff.mpr fun e he => ?_
          obtain ⟨c, hc, hec⟩ := List.mem_flatMap.mp he
          rw [decide_eq_true_eq, hrest c hc e hec]
          exact fun hid => hb (hid ▸ List.mem_map_of_mem hc)
        rw [hall, hnone, List.append_nil]
      · have hmem : a ∈ l := (List.mem_cons.mp ha).resolve_left hab
        have hnone : (events b).filter (fun e => decide (e.alertID = a.id)) =
            [] := by
          refine List.filter_eq_nil_iff.mpr fun e he => ?_
          rw [decide_eq_true_eq, hown b List.mem_cons_self e he]
          exact fun hid => hb (hid ▸ List.mem_map_of_mem hmem)
        rw [hnone, List.nil_append, ih hl hrest hmem]

theorem flatMap_ite_identity {l : List Alert} {events : List AlertEvent}
    (hkeys : (l.map Alert.identity).Nodup) {a : Alert} (ha : a ∈ l) :
    (l.flatMap fun b => if b.identity = a.identity then events else []) =
      events := by
  induction l with
  | nil => cases ha
  | cons b l ih =>
      obtain ⟨hb, hl⟩ := List.nodup_cons.mp hkeys
      rw [List.flatMap_cons]
      by_cases hab : b.identity = a.identity
      · have hnone : (l.flatMap fun c =>
            if c.identity = a.identity then events else []) = [] := by
          refine List.flatMap_eq_nil_iff.mpr fun c hc => if_neg fun hc' => hb ?_
          rw [hab, ← hc']
          exact List.mem_map_of_mem hc
        rw [if_pos hab, hnone, List.append_nil]
      · have hmem : a ∈ l :=
          (List.mem_cons.mp ha).resolve_left fun h => hab (h ▸ rfl)
        rw [if_neg hab, List.nil_append, ih hl hmem]

theorem map_filter_eq_flatMap {p : Alert → Bool} {g : Alert → AlertEvent}
    (l : List Alert) :
    (l.filter p).map g = l.flatMap fun a => if p a then [g a] else [] := by
  induction l with
  | nil => rfl
  | cons a l ih =>
      rw [List.flatMap_cons, ← ih]
      by_cases hp : p a = true
      · rw [List.filter_cons_of_pos hp, if_pos hp]
        rfl
      · rw [List.filter_cons_of_neg hp, if_neg hp]
        rfl

/-! ## Changes keep the books -/

/-- Every row is still there, under its identity and id. -/
def RowsStay (db db' : AlertDB) : Prop :=
  ∀ a ∈ db.alerts, ∃ a' ∈ db'.alerts, a'.identity = a.identity ∧ a'.id = a.id

theorem RowsStay.refl (db : AlertDB) : RowsStay db db :=
  fun a ha => ⟨a, ha, rfl, rfl⟩

theorem RowsStay.trans {db db' db'' : AlertDB} (h : RowsStay db db')
    (h' : RowsStay db' db'') : RowsStay db db'' := by
  intro a ha
  obtain ⟨a', ha', hidentity, hid⟩ := h a ha
  obtain ⟨a'', ha'', hidentity', hid'⟩ := h' a' ha'
  exact ⟨a'', ha'', hidentity'.trans hidentity, hid'.trans hid⟩

/-- Rows are rewritten in place, each with the events that take it from its old
state to the new one and the failures that are noted for it. -/
theorem Kept.rewrite {db db' : AlertDB} (h : Kept db) (f : Alert → Alert)
    (events : Alert → List AlertEvent) (noted : List AlertObservation)
    (halerts : db'.alerts = db.alerts.map f)
    (hevents : db'.events = db.events ++ db.alerts.flatMap events)
    (hnoted : db'.observations = db.observations ++ noted)
    (hmoves : ∀ a ∈ db.alerts,
      Moves a (f a) (events a) (failuresIn noted a.id).length)
    (hown : ∀ o ∈ noted, ∃ a ∈ db.alerts, a.id = o.alertID) :
    Kept db' ∧ RowsStay db db' := by
  have hstay : RowsStay db db' := by
    intro a ha
    refine ⟨f a, ?_, (hmoves a ha).identity, (hmoves a ha).id⟩
    rw [halerts]
    exact List.mem_map_of_mem ha
  have hsame : ∀ id, (∃ a ∈ db.alerts, a.id = id) →
      ∃ a ∈ db'.alerts, a.id = id := by
    rintro id ⟨a, ha, rfl⟩
    obtain ⟨a', ha', -, hid⟩ := hstay a ha
    exact ⟨a', ha', hid⟩
  refine ⟨⟨?_, ?_, fun a' ha' => ?_, fun e he => ?_, fun o ho => ?_⟩, hstay⟩
  · have hkeep : (db.alerts.map f).map Alert.identity =
        db.alerts.map Alert.identity := by
      rw [List.map_map]
      exact List.map_congr_left fun a ha => (hmoves a ha).identity
    rw [halerts, hkeep]
    exact h.identities
  · have hkeep : (db.alerts.map f).map Alert.id = db.alerts.map Alert.id := by
      rw [List.map_map]
      exact List.map_congr_left fun a ha => (hmoves a ha).id
    rw [halerts, hkeep]
    exact h.ids
  · rw [halerts] at ha'
    obtain ⟨a, ha, rfl⟩ := List.mem_map.mp ha'
    have hm := hmoves a ha
    have hb := h.booked a ha
    have heventsOf : eventsOf db' (f a).id = eventsOf db a.id ++ events a := by
      rw [eventsOf, hevents, hm.id, List.filter_append,
        filter_flatMap_own h.ids (fun c hc => (hmoves c hc).own) ha]
      rfl
    have hfailures : failuresIn db'.observations (f a).id =
        failuresIn db.observations a.id ++ failuresIn noted a.id := by
      rw [failuresIn, hnoted, hm.id, List.filter_append]
      rfl
    refine ⟨?_, ?_, ?_⟩
    · rw [hm.total, hb.total, hfailures, List.length_append]
    · rw [hm.generation, hb.generation, heventsOf, List.filter_append,
        List.length_append]
    · rw [heventsOf]
      exact hb.path.append hm.path
  · rw [hevents] at he
    refine hsame _ ?_
    rcases List.mem_append.mp he with hold | hnew
    · exact h.events e hold
    · obtain ⟨a, ha, hea⟩ := List.mem_flatMap.mp hnew
      exact ⟨a, ha, ((hmoves a ha).own e hea).symm⟩
  · rw [hnoted] at ho
    refine hsame _ ?_
    rcases List.mem_append.mp ho with hold | hnew
    · exact h.observations o hold
    · exact hown o hnew

/-- One row is rewritten. -/
theorem Kept.setRow {db db' : AlertDB} {a row : Alert}
    {events : List AlertEvent} (h : Kept db) (noted : List AlertObservation)
    (ha : a ∈ db.alerts)
    (halerts : db'.alerts = (db.setAlert row).alerts)
    (hevents : db'.events = db.events ++ events)
    (hnoted : db'.observations = db.observations ++ noted)
    (hown : ∀ o ∈ noted, o.alertID = a.id)
    (hmoves : Moves a row events (failuresIn noted a.id).length) :
    Kept db' ∧ RowsStay db db' := by
  have hrow : row.identity = a.identity := hmoves.identity
  refine h.rewrite (fun b => if b.identity = row.identity then row else b)
    (fun b => if b.identity = a.identity then events else []) noted
    halerts ?_ hnoted (fun b hb => ?_) fun o ho => ⟨a, ha, (hown o ho).symm⟩
  · rw [hevents, flatMap_ite_identity h.identities ha]
  · by_cases hba : b.identity = a.identity
    · have hsame : b = a := List.inj_on_of_nodup_map h.identities hb ha hba
      subst hsame
      rw [if_pos hrow.symm, if_pos rfl]
      exact hmoves
    · have hnone : failuresIn noted b.id = [] := by
        refine List.filter_eq_nil_iff.mpr fun o ho => ?_
        rw [decide_eq_true_eq, hown o ho]
        intro hid
        exact hba (List.inj_on_of_nodup_map h.ids ha hb hid.1 ▸ rfl)
      rw [if_neg (hrow ▸ hba), if_neg hba, hnone]
      exact Moves.refl b

/-- A row that is put beside the others, before anything is noted of it. -/
theorem Kept.shell {db : AlertDB} (h : Kept db) (shell : Alert)
    (hidentity : db.alert shell.identity = none)
    (hid : ∀ a ∈ db.alerts, a.id ≠ shell.id) (hstate : shell.state = .resolved)
    (htotal : shell.totalOccurrenceCount = 0) (hgen : shell.generation = 0) :
    Kept { db with alerts := db.alerts ++ [shell] } ∧
      RowsStay db { db with alerts := db.alerts ++ [shell] } := by
  have hkeep : ∀ id, (∃ a ∈ db.alerts, a.id = id) →
      ∃ a ∈ db.alerts ++ [shell], a.id = id :=
    fun id ⟨a, ha, hid⟩ => ⟨a, List.mem_append_left _ ha, hid⟩
  refine ⟨⟨?_, ?_, fun a ha => ?_, fun e he => hkeep _ (h.events e he),
    fun o ho => hkeep _ (h.observations o ho)⟩,
    fun a ha => ⟨a, List.mem_append_left _ ha, rfl, rfl⟩⟩
  · rw [List.map_append, List.nodup_append]
    refine ⟨h.identities, List.nodup_singleton _, fun k hk k' hk' heq => ?_⟩
    obtain ⟨a, ha, rfl⟩ := List.mem_map.mp hk
    rw [List.map_singleton, List.mem_singleton] at hk'
    have hfree := List.find?_eq_none.mp hidentity a ha
    exact hfree (decide_eq_true (heq.trans hk'))
  · rw [List.map_append, List.nodup_append]
    refine ⟨h.ids, List.nodup_singleton _, fun k hk k' hk' heq => ?_⟩
    obtain ⟨a, ha, rfl⟩ := List.mem_map.mp hk
    rw [List.map_singleton, List.mem_singleton] at hk'
    exact hid a ha (heq.trans hk')
  · rcases List.mem_append.mp ha with hold | hnew
    · exact ⟨(h.booked a hold).total, (h.booked a hold).generation,
        (h.booked a hold).path⟩
    · rw [List.mem_singleton.mp hnew]
      have hevents : eventsOf db shell.id = [] := by
        refine List.filter_eq_nil_iff.mpr fun e he => ?_
        obtain ⟨b, hb, hbe⟩ := h.events e he
        rw [decide_eq_true_eq, ← hbe]
        exact hid b hb
      have hfailures : failuresIn db.observations shell.id = [] := by
        refine List.filter_eq_nil_iff.mpr fun o ho => ?_
        obtain ⟨b, hb, hbo⟩ := h.observations o ho
        rw [decide_eq_true_eq, ← hbo]
        exact fun heq => hid b hb heq.1
      refine ⟨?_, ?_, ?_⟩
      · show shell.totalOccurrenceCount =
          (failuresIn db.observations shell.id).length
        rw [hfailures, htotal]
        rfl
      · show shell.generation = ((eventsOf db shell.id).filter opens).length
        rw [hevents, hgen]
        rfl
      · show Path .resolved (eventsOf db shell.id) shell.state
        rw [hevents, hstate]
        exact rfl

/-- Active rows that are resolved by a change, each with one event. -/
theorem Kept.resolveSome {db : AlertDB} (h : Kept db) (p : Alert → Bool)
    (f : Alert → Alert) (event : Alert → AlertEvent)
    (hmoves : ∀ a, p a = true → Moves a (f a) [event a] 0) {db' : AlertDB}
    (hdb : db' = { db with
      alerts := db.alerts.map fun a => if p a then f a else a
      events := db.events ++ (db.alerts.filter p).map event }) :
    Kept db' ∧ RowsStay db db' := by
  subst hdb
  refine h.rewrite (fun a => if p a then f a else a)
    (fun a => if p a then [event a] else []) [] rfl ?_ (List.append_nil _).symm (fun a _ => ?_) nofun
  · rw [← map_filter_eq_flatMap]
  · by_cases hp : p a = true
    · rw [if_pos hp, if_pos hp]
      exact hmoves a hp
    · rw [if_neg hp, if_neg hp]
      exact Moves.refl a

theorem Kept.resolveSuperseded {db : AlertDB} (h : Kept db) (now : Int)
    (result : CheckResult) (policyID : String) :
    Kept (resolveSupersededAlerts now result policyID db) ∧
      RowsStay db (resolveSupersededAlerts now result policyID db) := by
  refine h.resolveSome (·.supersededBy result policyID)
    (·.supersede result now) (supersededEvent result) (fun a _ => ⟨rfl, rfl,
    fun e he => ?_, ⟨rfl, rfl⟩, rfl, rfl⟩) rfl
  rw [List.mem_singleton.mp he]
  rfl

theorem Kept.resolvePolicy {db : AlertDB} (h : Kept db) (change : PolicyChange)
    (policyID : String) (activeCheckKeys : List String) (now : Int) :
    Kept (resolvePolicyAlerts change policyID activeCheckKeys now db) ∧
      RowsStay db (resolvePolicyAlerts change policyID activeCheckKeys now db) := by
  refine h.resolveSome (·.invalidatedBy policyID activeCheckKeys)
    (·.invalidate change now) (policyEvent change now) (fun a _ => ⟨rfl, rfl,
    fun e he => ?_, ⟨rfl, rfl⟩, ?_, rfl⟩) rfl
  · rw [List.mem_singleton.mp he]
    rfl
  · cases change with
    | revised => rfl
    | deleted => rfl

/-! ## Operator actions -/

theorem lockAlertAction_eq_ok {action : AlertAction} {db : AlertDB}
    {alert : Alert} {replay : Bool}
    (h : lockAlertAction action db = .ok (alert, replay)) :
    alert ∈ db.alerts := by
  rw [lockAlertAction] at h
  split at h
  · cases h
  · next found hfound =>
      have hmem : found ∈ db.alerts := List.mem_of_find?_eq_some hfound
      split at h
      · cases h
        exact hmem
      · split at h
        · cases h
        · cases h
          exact hmem

theorem Kept.actOn {db db' : AlertDB} {eventType : AlertEventType}
    {refusal : Alert → Option AlertActionError} {edit : Alert → Alert}
    {action : AlertAction} (h : Kept db)
    (hact : actOnAlert eventType refusal edit action db = .ok db')
    (htype : eventType ≠ .opened ∧ eventType ≠ .reopened)
    (hedit : ∀ a, (edit a).identity = a.identity ∧ (edit a).id = a.id ∧
      (edit a).generation = a.generation ∧
      (edit a).totalOccurrenceCount = a.totalOccurrenceCount) :
    Kept db' ∧ RowsStay db db' ∧ db'.observations = db.observations := by
  rw [actOnAlert] at hact
  split at hact
  · cases hact
  · next alert replay hlock =>
      have hmem := lockAlertAction_eq_ok hlock
      split at hact
      · cases hact
      · split at hact
        · cases hact
          exact ⟨h, RowsStay.refl _, rfl⟩
        · split at hact
          · cases hact
          · cases hact
            obtain ⟨hidentity, hid, hgen, htotal⟩ := hedit alert
            rw [← and_assoc]
            refine ⟨h.setRow [] hmem rfl rfl (List.append_nil _).symm
              nofun ⟨hidentity, hid, fun e he => ?_, ⟨rfl, rfl⟩, ?_, htotal⟩, rfl⟩
            · rw [List.mem_singleton.mp he]
              rfl
            · have hclosed : opens (operatorAlertEvent eventType action
                  alert.state (edit alert).state alert) = false :=
                decide_eq_false fun hor => hor.elim htype.1 htype.2
              rw [List.filter_cons_of_neg (by rw [hclosed]; exact nofun), hgen]
              rfl

/-! ## Applying a result -/

theorem moves_countLate (a : Alert) (r : CheckResult) :
    Moves a (a.countLate r) [] (if r.failing then 1 else 0) := by
  rw [Alert.countLate]
  split
  · exact ⟨rfl, rfl, own_nil a, rfl, rfl, rfl⟩
  · exact Moves.refl a

theorem moves_recover (a : Alert) (r : CheckResult) (now : Int)
    (revisionID : String) :
    Moves a ((a.seen now r revisionID).recover r) (recoveryEvents a r) 0 := by
  rw [Alert.recover, recoveryEvents]
  by_cases hs : a.state ≠ .resolved
  · have hs' : (a.seen now r revisionID).state ≠ .resolved := hs
    rw [if_pos hs, if_pos hs']
    refine ⟨rfl, rfl, fun e he => ?_, ⟨rfl, rfl⟩, rfl, rfl⟩
    rw [List.mem_singleton.mp he]
  · have hs' : ¬ (a.seen now r revisionID).state ≠ .resolved := hs
    rw [if_neg hs, if_neg hs']
    exact ⟨rfl, rfl, own_nil a, rfl, rfl, rfl⟩

theorem moves_raise (a : Alert) (r : CheckResult) (now : Int)
    (revisionID : String) (windows : List MaintenanceWindow) :
    Moves a (((a.seen now r revisionID).suppress windows).raise r)
      (openingEvents a r) 1 := by
  rw [Alert.raise, openingEvents]
  by_cases hs : a.state = .resolved
  · have hs' : ((a.seen now r revisionID).suppress windows).state = .resolved :=
      hs
    rw [if_pos hs, if_pos hs']
    refine ⟨rfl, rfl, fun e he => ?_, ⟨rfl, rfl⟩, ?_, rfl⟩
    · rw [List.mem_singleton.mp he]
    · have hopens : opens
          { alertID := a.id, generation := a.generation + 1
            eventType := if a.generation = 0 then .opened else .reopened
            fromState := a.state, toState := .open
            sourceResultID := some r.id, createdAt := r.evaluatedAt } = true := by
        refine decide_eq_true ?_
        by_cases hg : a.generation = 0
        · exact .inl (if_pos hg)
        · exact .inr (if_neg hg)
      rw [List.filter_cons_of_pos hopens]
      rfl
  · have hs' : ¬ ((a.seen now r revisionID).suppress windows).state =
        .resolved := hs
    rw [if_neg hs, if_neg hs']
    exact ⟨rfl, rfl, own_nil a, rfl, rfl, rfl⟩

/-- The failures a result's own observation counts. -/
theorem length_failuresIn_observation (a : Alert) (r : CheckResult) (now : Int)
    (late : Bool) :
    (failuresIn [observation now a r late] a.id).length =
      if r.failing then 1 else 0 := by
  by_cases hf : r.status = .ok
  · simp [failuresIn, observation, CheckResult.failing, hf]
  · simp [failuresIn, observation, CheckResult.failing, hf]

/-- A new result is noted once, for the row it is about. -/
theorem Kept.applyToAlert {zones : ZoneTable} {now : Int} {r : CheckResult}
    {revisionID : String} {a : Alert} {db db' : AlertDB} (h : Kept db)
    (ha : a ∈ db.alerts)
    (happly : applyToAlert zones now r revisionID a db = .ok db') :
    Kept db' ∧ RowsStay db db' ∧ ∃ late,
      db'.observations = db.observations ++ [observation now a r late] := by
  have hown : ∀ late, ∀ o ∈ [observation now a r late], o.alertID = a.id := by
    intro late o ho
    rw [List.mem_singleton.mp ho]
    rfl
  rw [Server.applyToAlert] at happly
  split at happly
  · cases happly
    rw [← and_assoc]
    refine ⟨h.setRow _ ha rfl (List.append_nil _).symm rfl (hown true) ?_, true, rfl⟩
    rw [length_failuresIn_observation]
    exact moves_countLate a r
  · split at happly
    · next hfailing =>
        split at happly
        · cases happly
        · cases happly
          rw [← and_assoc]
          refine ⟨h.setRow _ ha rfl rfl rfl (hown false) ?_, false, rfl⟩
          rw [length_failuresIn_observation, if_pos hfailing]
          exact moves_raise a r now revisionID _
    · next hfailing =>
        cases happly
        rw [← and_assoc]
        refine ⟨h.setRow _ ha rfl rfl rfl (hown false) ?_, false, rfl⟩
        rw [length_failuresIn_observation, if_neg hfailing]
        exact moves_recover a r now revisionID

theorem Kept.prepare {now : Int} {uuid : String} {r : CheckResult}
    {policyID revisionID : String} {db : AlertDB} (h : Kept db)
    (hclash : ¬ db.clashes uuid r ⟨r.agentID, policyID, r.checkKey⟩ = true) :
    Kept (prepareAlert now uuid r policyID revisionID db) ∧
      RowsStay db (prepareAlert now uuid r policyID revisionID db) := by
  obtain ⟨hkept, hstay⟩ := h.resolveSuperseded now r policyID
  rw [prepareAlert]
  split
  · next hfailing =>
      rw [ensureAlertShell]
      split
      · exact ⟨hkept, hstay⟩
      · next hnone =>
          have hfree : db.alert ⟨r.agentID, policyID, r.checkKey⟩ = none := by
            have hsame := @alert_resolveSuperseded db now r
              ⟨r.agentID, policyID, r.checkKey⟩
            exact hsame ▸ hnone
          have hids : ∀ a ∈ (resolveSupersededAlerts now r policyID db).alerts,
              a.id ≠ uuid := by
            intro a ha hid
            obtain ⟨b, hb, hba⟩ := List.mem_map.mp ha
            have hsame : b.id = a.id := by
              rw [← hba]
              split
              · rfl
              · rfl
            refine hclash ?_
            rw [AlertDB.clashes, hfailing, hfree]
            simp only [Option.isNone_none, Bool.true_and, List.any_eq_true]
            exact ⟨b, hb, decide_eq_true (hsame.trans hid)⟩
          obtain ⟨hshell, hstay'⟩ := hkept.shell
            (alertShell now uuid r policyID revisionID) hnone hids rfl rfl rfl
          exact ⟨hshell, hstay.trans hstay'⟩
  · exact ⟨hkept, hstay⟩

theorem observed_prepare {now : Int} {uuid policyID revisionID : String}
    {r : CheckResult} {db : AlertDB} (id : String) :
    (prepareAlert now uuid r policyID revisionID db).observed id =
      db.observed id := by
  rw [AlertDB.observed, prepare_observations]
  rfl

/-- A failing result has an alert. -/
theorem alert_prepare_isSome {now : Int} {uuid policyID revisionID : String}
    {r : CheckResult} {db : AlertDB} (hfailing : r.failing = true) :
    ((prepareAlert now uuid r policyID revisionID db).alert
      ⟨r.agentID, policyID, r.checkKey⟩).isSome := by
  rw [prepareAlert, if_pos hfailing]
  have hshell := @alert_ensureShell
    (resolveSupersededAlerts now r policyID db)
    (alertShell now uuid r policyID revisionID)
  have hidentity : (alertShell now uuid r policyID revisionID).identity =
      ⟨r.agentID, policyID, r.checkKey⟩ := rfl
  rw [hidentity] at hshell
  rw [hshell]
  rfl

/-- What applying a result does: the books are kept, and the result is noted
for its alert unless it was noted before or has none. -/
theorem Kept.applyResult {zones : ZoneTable} {now : Int} {uuid : String}
    {r : CheckResult} {db db' : AlertDB} (h : Kept db)
    (happly : applyResult zones now uuid r db = .ok db') :
    Kept db' ∧ RowsStay db db' ∧
      ((db'.observations = db.observations ∧
          (r.failing = true → r.target.isSome → db.observed r.id = true)) ∨
        db.observed r.id = false ∧ ∃ a ∈ db'.alerts, ∃ late,
          r.target = some a.identity ∧ db'.observations =
            db.observations ++ [observation now a r late]) := by
  rw [Server.applyResult] at happly
  split at happly
  · cases happly
  next hclash =>
  split at happly
  · cases happly
  next hres =>
  cases happly
  rw [applyCheckResultToAlert] at hres
  split at hres
  · next policyID revisionID hpolicy hrevision =>
      have htarget : r.target = some ⟨r.agentID, policyID, r.checkKey⟩ := by
        rw [CheckResult.target, hpolicy, hrevision]
      rw [htarget, Option.any_some] at hclash
      obtain ⟨hkept, hstay⟩ :
          Kept (prepareAlert now uuid r policyID revisionID db) ∧
            RowsStay db (prepareAlert now uuid r policyID revisionID db) :=
        h.prepare hclash
      have hnotes : (prepareAlert now uuid r policyID revisionID db).observations
          = db.observations := prepare_observations
      split at hres
      · next hnone =>
          cases hres
          refine ⟨hkept, hstay, .inl ⟨hnotes, fun hfailing _ => ?_⟩⟩
          have hsome : ((prepareAlert now uuid r policyID revisionID db).alert
              ⟨r.agentID, policyID, r.checkKey⟩).isSome :=
            alert_prepare_isSome hfailing
          rw [hnone] at hsome
          cases hsome
      · next a ha =>
          have hmem := List.mem_of_find?_eq_some ha
          split at hres
          · next hobserved =>
              cases hres
              rw [observed_prepare] at hobserved
              exact ⟨hkept, hstay, .inl ⟨hnotes, fun _ _ => hobserved⟩⟩
          · next hnew =>
              rw [observed_prepare] at hnew
              obtain ⟨hkept', hstay', late, hobs⟩ :=
                hkept.applyToAlert hmem hres
              obtain ⟨a', ha', hidentity, hid⟩ := hstay' a hmem
              refine ⟨hkept', hstay.trans hstay', .inr ⟨by simpa using hnew, a',
                ha', late, ?_, ?_⟩⟩
              · rw [htarget, hidentity, alert_identity ha]
              · have hsame : observation now a' r late =
                    observation now a r late := by
                  rw [observation, observation, hid]
                rw [hobs, hsame, hnotes]
  · next hprovenance =>
      cases hres
      refine ⟨h, RowsStay.refl _, .inl ⟨rfl, fun _ hsome => ?_⟩⟩
      have hnone : r.target = none := by
        rw [CheckResult.target]
        split
        · next policyID _ hpolicy hrevision =>
            exact absurd hrevision (hprovenance _ _ hpolicy)
        · rfl
      rw [hnone] at hsome
      cases hsome

/-! ## The whole book -/

/-- The observations are those of the results that were applied, one for each
result. -/
structure Accounted (b : Book) : Prop where
  kept : Kept b.db.alertDB
  unique : (b.db.results.map CheckResult.id).Nodup
  stored : ∀ r ∈ b.applied, r ∈ b.db.results
  once : (b.db.alertDB.observations.map AlertObservation.checkResultID).Nodup
  source : ∀ o ∈ b.db.alertDB.observations, ∃ r ∈ b.applied,
    ∃ a ∈ b.db.alertDB.alerts, r.id = o.checkResultID ∧ r.status = o.status ∧
      a.id = o.alertID ∧ r.target = some a.identity
  counted : ∀ r ∈ b.applied, r.failing = true → r.target.isSome →
    b.db.alertDB.observed r.id = true

theorem accounted_blank (directory : Directory)
    (windows : List MaintenanceWindow) :
    Accounted (Book.blank directory windows) where
  kept :=
    { identities := List.nodup_nil
      ids := List.nodup_nil
      booked := fun _ h => absurd h List.not_mem_nil
      events := fun _ h => absurd h List.not_mem_nil
      observations := fun _ h => absurd h List.not_mem_nil }
  unique := List.nodup_nil
  stored := fun _ h => absurd h List.not_mem_nil
  once := List.nodup_nil
  source := fun _ h => absurd h List.not_mem_nil
  counted := fun _ h => absurd h List.not_mem_nil

variable {zones : ZoneTable} {b : Book}

/-- A change of the alerts that notes no result. -/
theorem Accounted.setAlerts (h : Accounted b) {db : AlertDB} (hkept : Kept db)
    (hstay : RowsStay b.db.alertDB db)
    (hsame : db.observations = b.db.alertDB.observations) :
    Accounted (b.setAlerts db) := by
  refine ⟨hkept, h.unique, h.stored, ?_, fun o ho => ?_, fun r hr hf ht => ?_⟩
  · show (db.observations.map _).Nodup
    rw [hsame]
    exact h.once
  · have ho' : o ∈ db.observations := ho
    rw [hsame] at ho'
    obtain ⟨r, hr, a, ha, hid, hstatus, halert, htarget⟩ := h.source o ho'
    obtain ⟨a', ha', hidentity, hid'⟩ := hstay a ha
    exact ⟨r, hr, a', ha', hid, hstatus, hid'.trans halert,
      htarget.trans (congrArg some hidentity.symm)⟩
  · show db.observed r.id = true
    rw [AlertDB.observed, hsame]
    exact h.counted r hr hf ht

theorem Accounted.acted (h : Accounted b) {answer}
    (hact : ∀ db, answer = .ok db → Kept db ∧ RowsStay b.db.alertDB db ∧
      db.observations = b.db.alertDB.observations) :
    Accounted (b.acted answer) := by
  cases answer with
  | error e => exact h
  | ok db =>
      obtain ⟨hkept, hstay, hsame⟩ := hact db rfl
      exact h.setAlerts hkept hstay hsame

/-- A stored result is applied. -/
theorem Accounted.apply (h : Accounted b) {now : Int} {uuid : String}
    {r : CheckResult} {results : List CheckResult} {db : AlertDB}
    (hunique : (results.map CheckResult.id).Nodup)
    (hresults : ∀ r' ∈ b.db.results, r' ∈ results) (hr : r ∈ results)
    (happly : applyResult zones now uuid r b.db.alertDB = .ok db) :
    Accounted ⟨⟨db, results⟩, b.applied ++ [r]⟩ := by
  obtain ⟨hkept, hstay, hnoted⟩ := h.kept.applyResult happly
  have hstored : ∀ r' ∈ b.applied ++ [r], r' ∈ results := by
    intro r' hr'
    rcases List.mem_append.mp hr' with hold | hnew
    · exact hresults r' (h.stored r' hold)
    · exact List.mem_singleton.mp hnew ▸ hr
  -- What was noted before has its alert still.
  have hsource : ∀ o ∈ b.db.alertDB.observations, ∃ r' ∈ b.applied ++ [r],
      ∃ a ∈ db.alerts, r'.id = o.checkResultID ∧ r'.status = o.status ∧
        a.id = o.alertID ∧ r'.target = some a.identity := by
    intro o ho
    obtain ⟨r', hr', a, ha, hid, hstatus, halert, htarget⟩ := h.source o ho
    obtain ⟨a', ha', hidentity, hid'⟩ := hstay a ha
    exact ⟨r', List.mem_append_left _ hr', a', ha', hid, hstatus,
      hid'.trans halert, htarget.trans (congrArg some hidentity.symm)⟩
  rcases hnoted with ⟨hsame, hbefore⟩ | ⟨hnew, a, ha, late, htarget, hobs⟩
  · refine ⟨hkept, hunique, hstored, ?_, fun o ho => ?_, fun r' hr' hf ht => ?_⟩
    · show (db.observations.map _).Nodup
      rw [hsame]
      exact h.once
    · have ho' : o ∈ db.observations := ho
      rw [hsame] at ho'
      exact hsource o ho'
    · show db.observed r'.id = true
      rw [AlertDB.observed, hsame]
      rcases List.mem_append.mp hr' with hold | hlast
      · exact h.counted r' hold hf ht
      · rw [List.mem_singleton.mp hlast] at hf ht ⊢
        exact hbefore hf ht
  · refine ⟨hkept, hunique, hstored, ?_, fun o ho => ?_, fun r' hr' hf ht => ?_⟩
    · show (db.observations.map _).Nodup
      rw [hobs, List.map_append, List.nodup_append]
      refine ⟨h.once, List.nodup_singleton _, fun k hk k' hk' heq => ?_⟩
      obtain ⟨o, ho, rfl⟩ := List.mem_map.mp hk
      rw [List.map_singleton, List.mem_singleton] at hk'
      have hseen : b.db.alertDB.observed r.id = true :=
        List.any_eq_true.mpr ⟨o, ho, decide_eq_true (heq.trans hk')⟩
      rw [hnew] at hseen
      cases hseen
    · have ho' : o ∈ db.observations := ho
      rw [hobs] at ho'
      rcases List.mem_append.mp ho' with hold | hlast
      · exact hsource o hold
      · rw [List.mem_singleton.mp hlast]
        exact ⟨r, List.mem_append_right _ (List.mem_singleton_self r), a, ha,
          rfl, rfl, rfl, htarget⟩
    · show db.observed r'.id = true
      rw [AlertDB.observed, hobs, List.any_append, Bool.or_eq_true]
      rcases List.mem_append.mp hr' with hold | hlast
      · exact .inl (h.counted r' hold hf ht)
      · rw [List.mem_singleton.mp hlast]
        exact .inr (by simp [observation])

theorem Accounted.record (h : Accounted b) (now : Int) (resultUUID uuid : String)
    (request : RecordRequest) :
    Accounted (b.step zones (.record now resultUUID uuid request)) := by
  rw [Book.step]
  cases hrecord : recordCheckResult zones now resultUUID uuid request b.db with
  | error e => exact h
  | ok db =>
      rw [recordCheckResult] at hrecord
      split at hrecord
      · cases hrecord
      split at hrecord
      · cases hrecord
      split at hrecord
      · cases hrecord
      next hfresh =>
      -- The id of the new row is the id of no other.
      have hunique : ((b.db.results ++ [request.row now resultUUID]).map
          CheckResult.id).Nodup := by
        rw [List.map_append, List.nodup_append]
        refine ⟨h.unique, List.nodup_singleton _, fun k hk k' hk' heq => ?_⟩
        obtain ⟨r, hr, rfl⟩ := List.mem_map.mp hk
        rw [List.map_singleton, List.mem_singleton] at hk'
        exact hfresh (List.any_eq_true.mpr
          ⟨r, hr, decide_eq_true (heq.trans hk')⟩)
      have hresults : ∀ r ∈ b.db.results,
          r ∈ b.db.results ++ [request.row now resultUUID] :=
        fun r hr => List.mem_append_left _ hr
      split at hrecord
      · next halerts =>
          split at hrecord
          · cases hrecord
          · next alertDB happly =>
              cases hrecord
              simp only [if_pos halerts]
              exact h.apply hunique hresults
                (List.mem_append_right _ (List.mem_singleton_self _)) happly
      · next hsilent =>
          cases hrecord
          simp only [if_neg hsilent]
          exact ⟨h.kept, hunique, fun r hr => hresults r (h.stored r hr), h.once,
            h.source, h.counted⟩

theorem Accounted.step (h : Accounted b) (event : BookEvent) :
    Accounted (b.step zones event) := by
  cases event with
  | record now resultUUID uuid request => exact h.record now resultUUID uuid request
  | applyAgain now uuid resultID =>
      rw [Book.step]
      split
      · exact h
      · next r hr =>
          cases happly : applyResult zones now uuid r b.db.alertDB with
          | error e => exact h
          | ok alertDB =>
              exact h.apply h.unique (fun _ hr' => hr')
                (List.mem_of_find?_eq_some hr) happly
  | revise policyID enabled checks now =>
      obtain ⟨hkept, hstay⟩ := h.kept.resolvePolicy .revised policyID
        (activeCheckKeys enabled checks) now
      exact h.setAlerts hkept hstay rfl
  | delete policyID now =>
      obtain ⟨hkept, hstay⟩ := h.kept.resolvePolicy .deleted policyID [] now
      exact h.setAlerts hkept hstay rfl
  | acknowledge action =>
      exact h.acted fun db hdb =>
        h.kept.actOn hdb ⟨nofun, nofun⟩ fun a => ⟨rfl, rfl, rfl, rfl⟩
  | assign assignment action =>
      exact h.acted fun db hdb =>
        h.kept.actOn hdb ⟨nofun, nofun⟩ fun a => ⟨rfl, rfl, rfl, rfl⟩
  | comment action =>
      exact h.acted fun db hdb =>
        h.kept.actOn hdb ⟨nofun, nofun⟩ fun a => ⟨rfl, rfl, rfl, rfl⟩
  | resolve action =>
      exact h.acted fun db hdb =>
        h.kept.actOn hdb ⟨nofun, nofun⟩ fun a => ⟨rfl, rfl, rfl, rfl⟩
  | surroundings directory windows =>
      refine h.setAlerts ?_ (RowsStay.refl _) rfl
      exact ⟨h.kept.identities, h.kept.ids, fun a ha =>
        ⟨(h.kept.booked a ha).total, (h.kept.booked a ha).generation,
          (h.kept.booked a ha).path⟩, h.kept.events, h.kept.observations⟩

theorem Accounted.run (h : Accounted b) (events : List BookEvent) :
    Accounted (b.run zones events) := by
  induction events generalizing b with
  | nil => exact h
  | cons event events ih => exact ih (h.step event)

/-! ## The counters -/

/-- The distinct failing results that were applied to an alert, by their ids. -/
def failingApplied (b : Book) (a : Alert) : List String :=
  ((b.applied.filter fun r =>
    r.failing && decide (r.target = some a.identity)).map CheckResult.id).dedup

theorem Accounted.length_failingApplied (h : Accounted b) {a : Alert}
    (ha : a ∈ b.db.alertDB.alerts) :
    (failuresIn b.db.alertDB.observations a.id).length =
      (failingApplied b a).length := by
  have hnodup : ((failuresIn b.db.alertDB.observations a.id).map
      AlertObservation.checkResultID).Nodup :=
    h.once.sublist (List.filter_sublist.map _)
  rw [← List.length_map AlertObservation.checkResultID]
  refine List.Perm.length_eq ((List.perm_ext_iff_of_nodup hnodup
    (List.nodup_dedup _)).mpr fun id => ?_)
  rw [List.mem_dedup, List.mem_map, List.mem_map]
  constructor
  · rintro ⟨o, ho, rfl⟩
    obtain ⟨hmem, hown⟩ := List.mem_filter.mp ho
    obtain ⟨halert, hfailing⟩ := of_decide_eq_true hown
    obtain ⟨r, hr, a', ha', hid, hstatus, halert', htarget⟩ := h.source o hmem
    have hsame : a' = a :=
      List.inj_on_of_nodup_map h.kept.ids ha' ha (halert'.trans halert)
    refine ⟨r, List.mem_filter.mpr ⟨hr, ?_⟩, hid⟩
    rw [Bool.and_eq_true, decide_eq_true_eq]
    exact ⟨decide_eq_true (hstatus ▸ hfailing), hsame ▸ htarget⟩
  · rintro ⟨r, hr, rfl⟩
    obtain ⟨hmem, hown⟩ := List.mem_filter.mp hr
    rw [Bool.and_eq_true, decide_eq_true_eq] at hown
    obtain ⟨hfailing, htarget⟩ := hown
    have hseen := h.counted r hmem hfailing (by rw [htarget]; rfl)
    obtain ⟨o, ho, hid⟩ := List.any_eq_true.mp hseen
    have hid' := of_decide_eq_true hid
    obtain ⟨r', hr', a', ha', hid'', hstatus, halert, htarget'⟩ := h.source o ho
    -- The id stands for one result, so the observation is of this alert.
    have hresult : r' = r := List.inj_on_of_nodup_map h.unique
      (h.stored r' hr') (h.stored r hmem) (hid''.trans hid')
    subst hresult
    have hsame : a' = a := List.inj_on_of_nodup_map h.kept.identities ha' ha
      (Option.some.inj (htarget'.symm.trans htarget))
    subst hsame
    refine ⟨o, List.mem_filter.mpr ⟨ho, decide_eq_true ⟨halert.symm, ?_⟩⟩, hid'⟩
    rw [← hstatus]
    exact of_decide_eq_true hfailing

/-- What the books say of an alert. -/
structure BooksOf (b : Book) (a : Alert) : Prop where
  total : a.totalOccurrenceCount = (failingApplied b a).length
  generation : a.generation = ((eventsOf b.db.alertDB a.id).filter opens).length
  path : Path .resolved (eventsOf b.db.alertDB a.id) a.state

/-- In every run the books of every alert are kept. -/
theorem alert_books_kept (zones : ZoneTable) (directory : Directory)
    (windows : List MaintenanceWindow) (events : List BookEvent) :
    ∀ a ∈ ((Book.blank directory windows).run zones events).db.alertDB.alerts,
      BooksOf ((Book.blank directory windows).run zones events) a := by
  intro a ha
  have h : Accounted ((Book.blank directory windows).run zones events) :=
    (accounted_blank directory windows).run events
  have hbooked := h.kept.booked a ha
  refine ⟨?_, hbooked.generation, hbooked.path⟩
  rw [hbooked.total, h.length_failingApplied ha]

/-- One endpoint, and the first failing result of a check. -/
def firstFailure : Book :=
  (Book.blank ⟨fun _ => some "s", fun _ => some "c"⟩ []).run (fun _ => none)
    [.record 0 "r-1" "al-1"
      { agentID := "a"
        policyID := some "p"
        policyRevisionID := some "v"
        checkKey := "cpu"
        status := .critical
        value := none
        evaluatedAt := none
        resultID := none }]

theorem alert_books_kept_firstFailure :
    ∃ a ∈ firstFailure.db.alertDB.alerts, BooksOf firstFailure a := by
  have hids : firstFailure.db.alertDB.alerts.map (·.id) = ["al-1"] := by
    decide +kernel
  obtain ⟨a, ha, -⟩ := List.mem_map.mp
    (show "al-1" ∈ firstFailure.db.alertDB.alerts.map (·.id) by
      rw [hids]
      exact List.mem_singleton_self _)
  exact ⟨a, ha, alert_books_kept _ _ _ _ a ha⟩

end NodeLink.Proofs.AlertBook
