import NodeLink.Proofs.AlertBook
import NodeLink.Server.Monitoring

/-!
# What recording a check result does

When `record_check_result` gets through, and what it leaves: one more row, a
detail beside it, and, where the result is applied, alert events that open an
alert only on account of that very result.
-/

namespace NodeLink.Proofs.MonitoringRecords

open Server AlertBook

/-! ## Alerts -/

/-- The endpoints stay where they are, and an alert that opens does so on
account of the result. -/
structure Applied (db db' : AlertDB) (r : CheckResult) : Prop where
  directory : db'.directory = db.directory
  events : ∃ new, db'.events = db.events ++ new ∧
    ∀ e ∈ new, opens e = true → e.sourceResultID = some r.id

theorem Applied.refl (db : AlertDB) (r : CheckResult) : Applied db db r :=
  ⟨rfl, [], (List.append_nil _).symm, fun _ h => absurd h List.not_mem_nil⟩

theorem Applied.trans {db db' db'' : AlertDB} {r : CheckResult}
    (h : Applied db db' r) (h' : Applied db' db'' r) : Applied db db'' r := by
  obtain ⟨new, hnew, hopens⟩ := h.events
  obtain ⟨new', hnew', hopens'⟩ := h'.events
  refine ⟨h'.directory.trans h.directory, new ++ new', ?_, ?_⟩
  · rw [hnew', hnew, List.append_assoc]
  · intro e he
    rcases List.mem_append.mp he with he | he
    · exact hopens e he
    · exact hopens' e he

section Apply

variable {zones : ZoneTable} {now : Int} {uuid : String} {r : CheckResult}
  {revisionID policyID : String} {a : Alert} {db db' : AlertDB}

theorem applyToAlert_isOk {site : String}
    (hsite : db.directory.agentSite r.agentID = some site) :
    ∃ db', applyToAlert zones now r revisionID a db = .ok db' := by
  unfold applyToAlert
  split
  · exact ⟨_, rfl⟩
  · split
    · rw [hsite]
      exact ⟨_, rfl⟩
    · exact ⟨_, rfl⟩

theorem applied_applyToAlert
    (h : applyToAlert zones now r revisionID a db = .ok db') :
    Applied db db' r := by
  unfold applyToAlert at h
  split at h
  · cases h
    exact ⟨rfl, [], (List.append_nil _).symm,
      fun _ h => absurd h List.not_mem_nil⟩
  · split at h
    · split at h
      · cases h
      · cases h
        refine ⟨rfl, openingEvents a r, rfl, ?_⟩
        intro e he _
        unfold openingEvents at he
        split at he
        · rw [List.mem_singleton.mp he]
        · cases he
    · cases h
      refine ⟨rfl, recoveryEvents a r, rfl, ?_⟩
      intro e he _
      unfold recoveryEvents at he
      split at he
      · rw [List.mem_singleton.mp he]
      · cases he

theorem applied_prepareAlert :
    Applied db (prepareAlert now uuid r policyID revisionID db) r := by
  have hresolved : Applied db (resolveSupersededAlerts now r policyID db) r := by
    refine ⟨rfl, _, rfl, ?_⟩
    intro e he hopens
    obtain ⟨alert, _, rfl⟩ := List.mem_map.mp he
    cases hopens
  unfold prepareAlert
  split
  · refine hresolved.trans ?_
    unfold ensureAlertShell
    split
    · exact Applied.refl _ r
    · exact ⟨rfl, [], (List.append_nil _).symm,
        fun _ h => absurd h List.not_mem_nil⟩
  · exact hresolved

theorem applyCheckResultToAlert_isOk {site : String}
    (hsite : db.directory.agentSite r.agentID = some site) :
    ∃ db', applyCheckResultToAlert zones now uuid r db = .ok db' := by
  unfold applyCheckResultToAlert
  split
  · split
    · exact ⟨_, rfl⟩
    · split
      · exact ⟨_, rfl⟩
      · refine applyToAlert_isOk (?_ : _ = some site)
        rw [applied_prepareAlert.directory]
        exact hsite
  · exact ⟨_, rfl⟩

theorem applied_applyCheckResultToAlert
    (h : applyCheckResultToAlert zones now uuid r db = .ok db') :
    Applied db db' r := by
  unfold applyCheckResultToAlert at h
  split at h
  · split at h
    · cases h
      exact applied_prepareAlert
    · split at h
      · cases h
        exact applied_prepareAlert
      · exact applied_prepareAlert.trans (applied_applyToAlert h)
  · cases h
    exact Applied.refl db r

theorem applyResult_isOk {site : String}
    (hsite : db.directory.agentSite r.agentID = some site)
    (hfresh : uuid ∉ db.alerts.map (·.id)) :
    ∃ db', applyResult zones now uuid r db = .ok db' := by
  have hclash : ∀ identity, db.clashes uuid r identity = false := by
    intro identity
    have hany : db.alerts.any (fun alert => decide (alert.id = uuid)) = false := by
      rw [List.any_eq_false]
      intro alert halert hid
      exact hfresh (List.mem_map.mpr ⟨alert, halert, of_decide_eq_true hid⟩)
    rw [AlertDB.clashes, hany, Bool.and_false]
  obtain ⟨db', hdb'⟩ : ∃ db', applyCheckResultToAlert zones now uuid r db =
      .ok db' := applyCheckResultToAlert_isOk hsite
  have hany : r.target.any (db.clashes uuid r) = false := by
    cases r.target with
    | none => rfl
    | some identity => exact hclash identity
  refine ⟨db', ?_⟩
  rw [applyResult, hany, if_neg Bool.false_ne_true, hdb']

theorem applied_applyResult (h : applyResult zones now uuid r db = .ok db') :
    Applied db db' r := by
  unfold applyResult at h
  split at h
  · cases h
  · split at h
    · cases h
    · next db'' happly =>
        cases h
        exact applied_applyCheckResultToAlert happly

end Apply

/-! ## Rows -/

section Record

variable {env : MonitoringEnv} {now : Int} {request : RecordRequest}
  {detail : ResultDetail} {tables tables' : MonitoringTables}

/-- The row a request makes, with the id that is drawn when none is given. -/
def rowOf (env : MonitoringEnv) (now : Int) (request : RecordRequest)
    (tables : MonitoringTables) : CheckResult :=
  request.row now (env.uuids.draw (tables.db.results.map (·.id)))

/-- What recording leaves. -/
structure Recorded (env : MonitoringEnv) (now : Int) (request : RecordRequest)
    (detail : ResultDetail) (tables tables' : MonitoringTables) : Prop where
  rules : tables'.rules = tables.rules
  active : tables'.active = tables.active
  directory : tables'.db.alertDB.directory = tables.db.alertDB.directory
  new : ∀ r ∈ tables.db.results, r.id ≠ (rowOf env now request tables).id
  results : tables'.db.results =
    tables.db.results ++ [rowOf env now request tables]
  details : tables'.details =
    tables.details ++ [((rowOf env now request tables).id, detail)]
  /-- An alert opens only when the result is applied, and on its account. -/
  events : ∃ events, tables'.db.alertDB.events =
      tables.db.alertDB.events ++ events ∧
    ∀ e ∈ events, opens e = true →
      e.sourceResultID = some (rowOf env now request tables).id ∧
        (request.alertOnUnknown = true ∨ request.status ≠ .unknown)

theorem recorded (h : tables.record env now request detail = .ok tables') :
    Recorded env now request detail tables tables' := by
  unfold MonitoringTables.record at h
  split at h
  · cases h
  · next db hrecord =>
      cases h
      unfold recordCheckResult at hrecord
      split at hrecord
      · cases hrecord
      · split at hrecord
        · cases hrecord
        · split at hrecord
          · cases hrecord
          · next hnew =>
              have hfresh : ∀ r ∈ tables.db.results,
                  r.id ≠ (rowOf env now request tables).id := by
                intro r hr hid
                exact hnew (List.any_eq_true.mpr ⟨r, hr, decide_eq_true hid⟩)
              split at hrecord
              · next halert =>
                  split at hrecord
                  · cases hrecord
                  · next alertDB happly =>
                      cases hrecord
                      have heffect := applied_applyResult happly
                      obtain ⟨events, hevents, hopens⟩ := heffect.events
                      exact ⟨rfl, rfl, heffect.directory, hfresh, rfl, rfl, events,
                        hevents, fun e he hopen => ⟨hopens e he hopen, halert⟩⟩
              · cases hrecord
                exact ⟨rfl, rfl, rfl, hfresh, rfl, rfl, [],
                  (List.append_nil _).symm,
                  fun _ h => absurd h List.not_mem_nil⟩

theorem record_isOk {site : String}
    (hkey : checkKeyPattern request.checkKey = true)
    (hdetail : detail.all env.detailFits = true)
    (hnew : ∀ r ∈ tables.db.results, r.id ≠ (rowOf env now request tables).id)
    (hsite : tables.db.alertDB.directory.agentSite request.agentID =
      some site) :
    ∃ tables', tables.record env now request detail = .ok tables' := by
  obtain ⟨alertDB, happly⟩ : ∃ alertDB, applyResult env.zones now
      (env.uuids.draw (tables.db.alertDB.alerts.map (·.id)))
      (rowOf env now request tables) tables.db.alertDB = .ok alertDB :=
    applyResult_isOk hsite (env.uuids.fresh _)
  have hany : (tables.db.results.any fun r =>
      decide (r.id = (rowOf env now request tables).id)) = false := by
    rw [List.any_eq_false]
    exact fun r hr hid => hnew r hr (of_decide_eq_true hid)
  unfold MonitoringTables.record recordCheckResult
  rw [if_neg (not_not.mpr hkey), if_neg (not_not.mpr hdetail)]
  split
  · next e herror =>
      split at herror
      · next hclash =>
          exact absurd hclash (by rw [Bool.not_eq_true]; exact hany)
      · split at herror
        · split at herror
          · next e' hfail =>
              exact absurd (hfail.symm.trans happly) nofun
          · cases herror
        · cases herror
  · next db hrecord => exact ⟨_, rfl⟩

end Record

end NodeLink.Proofs.MonitoringRecords
