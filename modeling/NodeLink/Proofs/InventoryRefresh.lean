import NodeLink.Server.Inventory
import NodeLink.Agent.Inventory

/-!
# When a section is asked for again

Heartbeats and uploads of any number of agents, against one table of rows. The
newest row of a section is the one its last upload stored, or the one that
upload was found equal to. The second kind keeps the time of its own upload, so
a section that is reported unchanged after a day is asked for at every beat
from then on.
-/

namespace NodeLink.Proofs.InventoryRefresh

open Server Agent.Inventory

/-- What the two sides compute from a payload: the agent's `ContentHash`, the
server's `inventory_content_hash` of what it reads, and the length of the bytes
that are hashed there. -/
structure PayloadHashes (P : Type) where
  contentHash : P → Option String
  inventoryContentHash : P → String
  byteSize : P → Nat

/-- An accepted upload of a section. -/
structure Upload where
  /-- When its turn came. -/
  received : Int
  /-- The server's hash of the payload. -/
  contentHash : String
  /-- The hash the agent advertises for the section. -/
  advertised : Option String
  /-- The time on the row that was stored, or that it was found equal to. -/
  since : Int
  /-- Every beat since then advertised the same hash. -/
  steady : Bool
deriving DecidableEq, Repr

/-- The rows of the server, what each agent holds and was last asked for, and
the last accepted upload of each section. -/
structure World (P : Type) where
  clock : Int
  rows : List (AgentInventorySnapshot P) := []
  held : String → List (CollectedSection P) := fun _ => []
  requested : String → List String := fun _ => []
  uploaded : String → String → Option Upload := fun _ _ => none

inductive Event (P : Type) where
  /-- The agent collects its sections anew. -/
  | collect (agentID : String) (sections : List (CollectedSection P))
  /-- A heartbeat, some time after the last event; its answer may get lost. -/
  | beat (agentID : String) (wait : Nat) (answered : Bool)
  /-- The upload of what was asked for. Each section has its turn, and a row
  that is stored gets an id. -/
  | upload (agentID : String) (wait : Nat) (turn : String → Nat)
      (rowID : String → String)

variable {P : Type}

namespace World

/-- What the agent advertises for a section. -/
def advertised (ph : PayloadHashes P) (w : World P) (agentID : String) :
    String → Option String :=
  hashes ph.contentHash (w.held agentID)

/-- The moment of a beat. -/
def beatTime (w : World P) (wait : Nat) : Int := w.clock + wait + 1

/-- The sections the answer to a beat asks for. -/
def asks (ph : PayloadHashes P) (w : World P) (agentID : String) (wait : Nat) :
    List String :=
  sectionsToRequest (latestSection w.rows agentID) (w.advertised ph agentID)
    (w.beatTime wait)

def setUploaded (agentID sectionName : String) (u : Upload) (w : World P) :
    String → String → Option Upload :=
  fun a s =>
    if a = agentID ∧ s = sectionName then some u else w.uploaded a s

/-- The row an upload of a section would store. -/
def snapshot (ph : PayloadHashes P) (agentID : String) (now : Int) (id : String)
    (entry : CollectedSection P) : AgentInventorySnapshot P where
  id
  agentID
  sectionName := entry.sectionName
  status := entry.status
  schemaVersion := Agent.Inventory.schemaVersion
  contentHash := ph.inventoryContentHash entry.payload
  byteSize := ph.byteSize entry.payload
  payload := entry.payload
  collectedAt := entry.collectedAt
  receivedAt := now

/-- The record of an upload whose row has the time `since`. -/
def uploadOf (ph : PayloadHashes P) (w : World P) (agentID : String)
    (now since : Int) (entry : CollectedSection P) : Upload where
  received := now
  contentHash := ph.inventoryContentHash entry.payload
  advertised := w.advertised ph agentID entry.sectionName
  since
  steady := true

/-- The second pass of `submit_inventory` at one section. -/
def receive (ph : PayloadHashes P) (agentID : String) (turn : String → Nat)
    (rowID : String → String) (w : World P) (entry : CollectedSection P) :
    World P :=
  let now := w.clock + turn entry.sectionName
  let newest := latestSection w.rows agentID entry.sectionName
  match storeSection newest
      (snapshot ph agentID now (rowID entry.sectionName) entry) with
  | some row =>
    { w with
      clock := now
      rows := w.rows ++ [row]
      uploaded := w.setUploaded agentID entry.sectionName
        (w.uploadOf ph agentID now now entry) }
  | none =>
    { w with
      clock := now
      uploaded := w.setUploaded agentID entry.sectionName
        (w.uploadOf ph agentID now ((newest.map (·.receivedAt)).getD now)
          entry) }

/-- The sections an upload is made of. -/
def submission (w : World P) (agentID : String) : List (CollectedSection P) :=
  select (w.held agentID) (w.requested agentID)

/-- A beat at which another hash is advertised ends the steady stretch. -/
def noteBeat (ph : PayloadHashes P) (w : World P) (agentID : String) :
    String → String → Option Upload :=
  fun a s =>
    if a = agentID then
      (w.uploaded a s).map fun u => { u with
        steady := u.steady && (w.advertised ph agentID s == u.advertised) }
    else w.uploaded a s

def step (ph : PayloadHashes P) (w : World P) : Event P → World P
  | .collect agentID sections =>
    { w with held := fun a => if a = agentID then sections else w.held a }
  | .beat agentID wait answered =>
    { w with
      clock := w.beatTime wait
      requested := fun a =>
        if a = agentID ∧ answered then w.asks ph agentID wait
        else w.requested a
      uploaded := w.noteBeat ph agentID }
  | .upload agentID wait turn rowID =>
    if ((w.submission agentID).map (·.sectionName)).Nodup then
      (w.submission agentID).foldl (receive ph agentID turn rowID)
        { w with clock := w.clock + wait + 1 }
    else w

def run (ph : PayloadHashes P) (w : World P) (events : List (Event P)) :
    World P :=
  events.foldl (step ph) w

end World

/-! ## The newest row -/

theorem latestSection_append_other {rows : List (AgentInventorySnapshot P)}
    {row : AgentInventorySnapshot P} {agentID sectionName : String}
    (h : ¬ (row.agentID = agentID ∧ row.sectionName = sectionName)) :
    latestSection (rows ++ [row]) agentID sectionName =
      latestSection rows agentID sectionName := by
  have hown : sectionRows (rows ++ [row]) agentID sectionName =
      sectionRows rows agentID sectionName := by
    rw [sectionRows, List.filter_append,
      List.filter_cons_of_neg (by simpa using h), List.filter_nil,
      List.append_nil]
    rfl
  rw [latestSection, hown]
  rfl

/-- A row that is later than the other rows of its section is the newest. -/
theorem latestSection_append_newer {rows : List (AgentInventorySnapshot P)}
    {row : AgentInventorySnapshot P}
    (h : ∀ r ∈ sectionRows rows row.agentID row.sectionName,
      r.receivedAt < row.receivedAt) :
    latestSection (rows ++ [row]) row.agentID row.sectionName = some row := by
  have hown : sectionRows (rows ++ [row]) row.agentID row.sectionName =
      sectionRows rows row.agentID row.sectionName ++ [row] := by
    rw [sectionRows, List.filter_append,
      List.filter_cons_of_pos (by simp), List.filter_nil]
    rfl
  have hmax : ((sectionRows rows row.agentID row.sectionName ++ [row]).map
      (·.receivedAt)).max? = some row.receivedAt := by
    refine List.max?_eq_some_iff.mpr ⟨by simp, fun b hb => ?_⟩
    obtain ⟨r, hr, rfl⟩ := List.mem_map.mp hb
    rcases List.mem_append.mp hr with hold | hnew
    · exact Int.le_of_lt (h r hold)
    · exact Int.le_of_eq (by rw [List.mem_singleton.mp hnew])
  rw [latestSection, hown]
  simp only [hmax]
  rw [List.filter_append, List.filter_cons_of_pos (by simp), List.filter_nil]
  have hold : (sectionRows rows row.agentID row.sectionName).filter
      (fun r => some row.receivedAt = some r.receivedAt) = [] := by
    refine List.filter_eq_nil_iff.mpr fun r hr => ?_
    have hlt := h r hr
    rw [decide_eq_true_eq, Option.some.injEq]
    omega
  rw [hold]
  rfl

/-! ## What an upload leaves -/

/-- The newest row of every section that was uploaded is the one its last
upload stored or was found equal to. -/
structure Tracked (w : World P) : Prop where
  past : ∀ row ∈ w.rows, row.receivedAt ≤ w.clock
  newest : ∀ agentID sectionName u, w.uploaded agentID sectionName = some u →
    ∃ row, latestSection w.rows agentID sectionName = some row ∧
      row.contentHash = u.contentHash ∧ row.receivedAt = u.since

variable {ph : PayloadHashes P} {w : World P}

/-- The rows of the sections still to come are older than the clock. -/
def Waiting (agentID : String) (entries : List (CollectedSection P))
    (w : World P) : Prop :=
  ∀ entry ∈ entries, ∀ row ∈ sectionRows w.rows agentID entry.sectionName,
    row.receivedAt < w.clock

theorem setUploaded_eq_some {agentID sectionName a s : String} {u v : Upload}
    (h : w.setUploaded agentID sectionName v a s = some u) :
    (agentID = a ∧ sectionName = s ∧ v = u) ∨
      ¬ (a = agentID ∧ s = sectionName) ∧ w.uploaded a s = some u := by
  by_cases hkey : a = agentID ∧ s = sectionName
  · have hset : w.setUploaded agentID sectionName v a s = some v := if_pos hkey
    rw [hset] at h
    exact .inl ⟨hkey.1.symm, hkey.2.symm, Option.some.inj h⟩
  · have hset : w.setUploaded agentID sectionName v a s = w.uploaded a s :=
      if_neg hkey
    rw [hset] at h
    exact .inr ⟨hkey, h⟩

theorem storeSection_eq_none {stored : Option (AgentInventorySnapshot P)}
    {snapshot : AgentInventorySnapshot P}
    (h : storeSection stored snapshot = none) :
    ∃ row, stored = some row ∧ row.contentHash = snapshot.contentHash := by
  cases stored with
  | none => cases h
  | some row =>
      rw [storeSection] at h
      split at h
      · next hsame => exact ⟨row, rfl, hsame.1⟩
      · cases h

theorem storeSection_eq_some {stored : Option (AgentInventorySnapshot P)}
    {snapshot row : AgentInventorySnapshot P}
    (h : storeSection stored snapshot = some row) : row = snapshot := by
  cases stored with
  | none => exact (Option.some.inj h).symm
  | some newest =>
      rw [storeSection] at h
      split at h
      · cases h
      · exact (Option.some.inj h).symm

theorem Tracked.receive (h : Tracked w) {agentID : String}
    {entry : CollectedSection P} {entries : List (CollectedSection P)}
    (hnames : ((entry :: entries).map (·.sectionName)).Nodup)
    (hwaiting : Waiting agentID (entry :: entries) w) (turn : String → Nat)
    (rowID : String → String) :
    Tracked (w.receive ph agentID turn rowID entry) ∧
      Waiting agentID entries (w.receive ph agentID turn rowID entry) := by
  have hown := hwaiting entry List.mem_cons_self
  have hother : entry.sectionName ∉ entries.map (·.sectionName) :=
    (List.nodup_cons.mp hnames).1
  rw [World.receive]
  split
  · next row hstore =>
      have hrow := storeSection_eq_some hstore
      have hnow : row.receivedAt = w.clock + turn entry.sectionName := by
        rw [hrow]
        rfl
      have hagent : row.agentID = agentID := by rw [hrow]; rfl
      have hsection : row.sectionName = entry.sectionName := by rw [hrow]; rfl
      refine ⟨⟨fun r hr => ?_, fun a s u hu => ?_⟩, fun e he r hr => ?_⟩
      · show r.receivedAt ≤ w.clock + turn entry.sectionName
        rcases List.mem_append.mp hr with hold | hnew
        · have := h.past r hold
          omega
        · rw [List.mem_singleton.mp hnew]
          exact Int.le_of_eq hnow
      · rcases setUploaded_eq_some hu with ⟨rfl, rfl, rfl⟩ | ⟨hkey, hu⟩
        · refine ⟨row, ?_, ?_, hnow⟩
          · rw [← hagent, ← hsection]
            refine latestSection_append_newer fun r hr => ?_
            rw [hagent, hsection] at hr
            have := hown r hr
            omega
          · rw [hrow]
            rfl
        · obtain ⟨r, hr, hhash, hsince⟩ := h.newest a s u hu
          refine ⟨r, ?_, hhash, hsince⟩
          show latestSection (w.rows ++ [row]) a s = some r
          rw [latestSection_append_other, hr]
          rw [hagent, hsection]
          exact fun hsame => hkey ⟨hsame.1.symm, hsame.2.symm⟩
      · show r.receivedAt < w.clock + turn entry.sectionName
        have hmem : r ∈ sectionRows w.rows agentID e.sectionName := by
          rw [sectionRows, List.mem_filter] at hr ⊢
          refine ⟨?_, hr.2⟩
          rcases List.mem_append.mp hr.1 with hold | hnew
          · exact hold
          · -- The new row is of another section.
            have hname := (of_decide_eq_true hr.2).2
            rw [List.mem_singleton.mp hnew, hsection] at hname
            exact absurd (hname ▸ List.mem_map_of_mem he) hother
        have := hwaiting e (List.mem_cons_of_mem _ he) r hmem
        omega
  · next hstore =>
      obtain ⟨newest, hnewest, hhash⟩ := storeSection_eq_none hstore
      refine ⟨⟨fun r hr => ?_, fun a s u hu => ?_⟩, fun e he r hr => ?_⟩
      · have := h.past r hr
        show r.receivedAt ≤ w.clock + turn entry.sectionName
        omega
      · rcases setUploaded_eq_some hu with ⟨rfl, rfl, rfl⟩ | ⟨-, hu⟩
        · refine ⟨newest, hnewest, hhash, ?_⟩
          rw [hnewest]
          rfl
        · exact h.newest a s u hu
      · have := hwaiting e (List.mem_cons_of_mem _ he) r hr
        show r.receivedAt < w.clock + turn entry.sectionName
        omega

theorem Tracked.receives {agentID : String}
    {entries : List (CollectedSection P)} (h : Tracked w)
    (hnames : (entries.map (·.sectionName)).Nodup)
    (hwaiting : Waiting agentID entries w) (turn : String → Nat)
    (rowID : String → String) :
    Tracked (entries.foldl (World.receive ph agentID turn rowID) w) := by
  induction entries generalizing w with
  | nil => exact h
  | cons entry entries ih =>
      obtain ⟨htracked, hrest⟩ :
          Tracked (w.receive ph agentID turn rowID entry) ∧
            Waiting agentID entries (w.receive ph agentID turn rowID entry) :=
        h.receive hnames hwaiting turn rowID
      exact ih htracked (List.nodup_cons.mp hnames).2 hrest

theorem Tracked.step (h : Tracked w) (event : Event P) :
    Tracked (w.step ph event) := by
  cases event with
  | collect agentID sections => exact ⟨h.past, h.newest⟩
  | beat agentID wait answered =>
      refine ⟨fun row hrow => ?_, fun a s u hu => ?_⟩
      · have := h.past row hrow
        show row.receivedAt ≤ w.clock + wait + 1
        omega
      · have hu' : w.noteBeat ph agentID a s = some u := hu
        rw [World.noteBeat] at hu'
        split at hu'
        · obtain ⟨v, hv, rfl⟩ := Option.map_eq_some_iff.mp hu'
          exact h.newest a s v hv
        · exact h.newest a s u hu'
  | upload agentID wait turn rowID =>
      rw [World.step]
      split
      · next hnames =>
          have hlater : Tracked { w with clock := w.clock + wait + 1 } := by
            refine ⟨fun row hrow => ?_, h.newest⟩
            have := h.past row hrow
            show row.receivedAt ≤ w.clock + wait + 1
            omega
          refine hlater.receives hnames ?_ turn rowID
          · intro entry _ row hrow
            have := h.past row (List.mem_filter.mp hrow).1
            show row.receivedAt < w.clock + wait + 1
            omega
      · exact h

theorem Tracked.run (h : Tracked w) (events : List (Event P)) :
    Tracked (w.run ph events) := by
  induction events generalizing w with
  | nil => exact h
  | cons event events ih => exact ih (h.step event)

theorem tracked_start (start : Int) : Tracked ({ clock := start } : World P) where
  past row h := by cases h
  newest agentID sectionName u h := by cases h

/-! ## What a beat asks for -/

/-- The beat asks for no section whose last accepted upload is less than a
refresh interval old and whose advertised hash has stayed the same. -/
def Calm (ph : PayloadHashes P) (w : World P) (agentID : String) (wait : Nat) :
    Prop :=
  ∀ (s : InventorySection) (u : Upload),
    w.uploaded agentID s.value = some u → u.steady = true →
    w.advertised ph agentID s.value = u.advertised →
    w.beatTime wait - u.received < inventoryRefreshInterval →
    s.value ∉ w.asks ph agentID wait

/-- For such a section the server computed the hash the agent advertises, and
the row the upload stored or was found equal to is less than a refresh interval
old. -/
def Current (ph : PayloadHashes P) (w : World P) (agentID : String)
    (wait : Nat) : Prop :=
  ∀ (s : InventorySection) (u : Upload) (hash : String),
    w.uploaded agentID s.value = some u → u.steady = true →
    w.advertised ph agentID s.value = u.advertised →
    u.advertised = some hash →
    w.beatTime wait - u.received < inventoryRefreshInterval →
    u.contentHash = hash ∧
      w.beatTime wait - u.since < inventoryRefreshInterval

theorem mem_asks {agentID : String} {wait : Nat} {s : InventorySection} :
    s.value ∈ w.asks ph agentID wait ↔
      wantsSection (latestSection w.rows agentID s.value)
        (w.advertised ph agentID s.value) (w.beatTime wait) = true := by
  have hmember : s.value ∈ InventorySection.members.map (·.value) :=
    List.mem_map_of_mem (by cases s <;> decide)
  rw [World.asks, sectionsToRequest, List.mem_filter]
  exact and_iff_right hmember

/-- A section that was uploaded is asked for when the hashes differ or the row
is old. -/
theorem Tracked.mem_asks_iff (h : Tracked w) {agentID : String} {wait : Nat}
    {s : InventorySection} {u : Upload}
    (hu : w.uploaded agentID s.value = some u) :
    s.value ∈ w.asks ph agentID wait ↔
      ∃ hash, w.advertised ph agentID s.value = some hash ∧
        ¬ (u.contentHash = hash ∧
          w.beatTime wait - u.since < inventoryRefreshInterval) := by
  obtain ⟨row, hrow, hhash, hsince⟩ := h.newest agentID s.value u hu
  rw [mem_asks, hrow]
  cases hadv : w.advertised ph agentID s.value with
  | none => simp [wantsSection]
  | some hash =>
      rw [wantsSection, decide_eq_true_eq, hhash, hsince]
      simp only [Option.some.injEq, exists_eq_left', not_and, Int.not_lt]
      constructor
      · intro hwant heq
        exact hwant.resolve_left (not_not.mpr heq)
      · intro hwant
        by_cases heq : u.contentHash = hash
        · exact .inr (hwant heq)
        · exact .inl heq

theorem Tracked.calm_iff (h : Tracked w) (agentID : String) (wait : Nat) :
    Calm ph w agentID wait ↔ Current ph w agentID wait := by
  constructor
  · intro hcalm s u hash hu hsteady hsame hadv hrecent
    by_contra hold
    exact hcalm s u hu hsteady hsame hrecent
      ((h.mem_asks_iff hu).mpr ⟨hash, hsame.trans hadv, hold⟩)
  · intro hcurrent s u hu hsteady hsame hrecent hasked
    obtain ⟨hash, hadv, hold⟩ := (h.mem_asks_iff hu).mp hasked
    exact hold (hcurrent s u hash hu hsteady hsame (hsame ▸ hadv) hrecent)

/-- Something holds at every beat of a run. -/
def AtBeats (ph : PayloadHashes P) (start : Int) (events : List (Event P))
    (holds : World P → String → Nat → Prop) : Prop :=
  ∀ before agentID wait answered after,
    events = before ++ .beat agentID wait answered :: after →
    holds (World.run ph { clock := start } before) agentID wait

/-- In a run, no beat asks for a section that was uploaded less than a refresh
interval ago, exactly when each such section is current at each beat. -/
theorem inventory_settles_iff (ph : PayloadHashes P) (start : Int)
    (events : List (Event P)) :
    AtBeats ph start events (Calm ph) ↔
      AtBeats ph start events (Current ph) := by
  have htracked : ∀ before, Tracked (World.run ph { clock := start } before) :=
    fun before => (tracked_start start).run before
  constructor
  · intro h before agentID wait answered after heq
    exact ((htracked before).calm_iff agentID wait).mp
      (h before agentID wait answered after heq)
  · intro h before agentID wait answered after heq
    exact ((htracked before).calm_iff agentID wait).mpr
      (h before agentID wait answered after heq)

/-! ## The second day -/

/-- Payloads that are texts, hashed alike on both sides. -/
def sampleHashes : PayloadHashes String where
  contentHash := some
  inventoryContentHash := id
  byteSize := String.length

def sampleSections : List (CollectedSection String) :=
  [{ sectionName := "cpu", status := "ok", collectedAt := 0, payload := "8" }]

/-- A section is collected, asked for and stored; a day later it is asked for
again and reported unchanged. -/
def firstDay : List (Event String) :=
  [.collect "agent-1" sampleSections,
    .beat "agent-1" 0 true,
    .upload "agent-1" 0 (fun _ => 0) (fun _ => "row-1"),
    .beat "agent-1" 86400000000 true,
    .upload "agent-1" 0 (fun _ => 0) (fun _ => "row-2")]

/-- What is known of the second upload. -/
def secondUpload : Upload where
  received := 86400000004
  contentHash := "8"
  advertised := some "8"
  since := 2
  steady := true

/-- One minute after the upload that was reported unchanged, the section is
asked for again. -/
theorem unchanged_section_asked_again :
    ¬ AtBeats sampleHashes 0 (firstDay ++ [.beat "agent-1" 60000000 true])
      (Calm sampleHashes) := by
  intro h
  have hcalm := h firstDay "agent-1" 60000000 true [] rfl .cpu secondUpload
    (by decide +kernel) rfl (by decide +kernel) (by decide +kernel)
  exact hcalm (by decide +kernel)

end NodeLink.Proofs.InventoryRefresh
