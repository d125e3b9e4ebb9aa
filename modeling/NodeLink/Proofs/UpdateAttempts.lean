import NodeLink.Agent.UpdateWorld
import NodeLink.Proofs.VersionOrder

/-!
# One update attempt at a time

An update is refused while another is in flight, and what the recovery does
at a start belongs to the attempt it finds. So as long as no rollback on
request acts in the middle of an attempt, nothing but the attempt itself
touches the executable, the retained copies and the journal. An installed
journal names the digest of the copy it will restore; that copy becomes the
previous build when the attempt is committed, and the record stays true as
long as nothing else is copied over the file.

Most actions of the package are aside: they leave the journal, the record
and the retained copies alone. The programs are aside but for their saves,
and the proof goes from save to save.
-/

namespace NodeLink.Proofs.UpdateAttempts

open Lib Agent.SelfUpdate

/-! ## Actions that are aside -/

/-- Journal, record and retained copies are left alone. -/
structure Keeps (w w' : UpdateWorld) : Prop where
  since : w'.since = w.since
  journal : w'.disk.journal = w.disk.journal
  previous : w'.disk.previous = w.disk.previous
  backup : ∀ name, w'.disk.files (.backup name) = w.disk.files (.backup name)

theorem Keeps.refl (w : UpdateWorld) : Keeps w w := ⟨rfl, rfl, rfl, fun _ => rfl⟩

theorem Keeps.trans {u v w : UpdateWorld} (huv : Keeps u v) (hvw : Keeps v w) :
    Keeps u w :=
  ⟨hvw.since.trans huv.since, hvw.journal.trans huv.journal,
    hvw.previous.trans huv.previous,
    fun name => (hvw.backup name).trans (huv.backup name)⟩

theorem Keeps.put {w : UpdateWorld} {path : BuildFile} {content : Option Bytes}
    (h : ¬ path.IsBackup) : Keeps w (w.put path content) := by
  refine ⟨rfl, rfl, rfl, fun name => ?_⟩
  refine Function.update_of_ne ?_ _ _
  rintro rfl
  exact h trivial

theorem Keeps.drops {w w' : UpdateWorld} {drops : BuildFile → Prop}
    (hdrops : ∀ name, ¬ drops (.backup name)) (h : w.Drops drops w') :
    Keeps w w' := by
  obtain ⟨files, hfiles, rfl⟩ := h
  exact ⟨rfl, rfl, rfl, fun name => hfiles _ (hdrops name)⟩

theorem Keeps.moves {w w' : UpdateWorld} {src dest : BuildFile}
    (hsrc : ¬ src.IsBackup) (hdest : ¬ dest.IsBackup) (h : w.Moves src dest w') :
    Keeps w w' := by
  obtain ⟨content, -, rfl⟩ := h
  exact (Keeps.put hdest).trans (Keeps.put hsrc)

theorem Keeps.copiesPart {w w' : UpdateWorld} {src dest : BuildFile}
    (hdest : ¬ dest.IsBackup) (h : w.CopiesPart src dest w') : Keeps w w' := by
  obtain ⟨content, part, -, -, rfl⟩ := h
  exact Keeps.put hdest

theorem not_isBackup_of_isStaged {path : BuildFile} (h : path.IsStaged) :
    ¬ path.IsBackup := by
  cases path with
  | staged n => exact id
  | _ => exact h.elim

def Aside : UpdateOp → Prop
  | .copyFile _ dest => ¬ dest.IsBackup
  | .rename src dest => ¬ src.IsBackup ∧ ¬ dest.IsBackup
  | .remove path => ¬ path.IsBackup
  | .starts | .takesUp _ _ | .saveJournal _ | .clearJournal | .savePrevious _ =>
    False
  | _ => True

variable {sha256 : Bytes → String}

theorem keeps_of_does {w w' : UpdateWorld} {o : UpdateOp} {a : o.Ans}
    (ho : Aside o) (h : updateDoes sha256 w o a w') : Keeps w w' := by
  cases o with
  | starts => exact ho.elim
  | takesUp opts cmd => exact ho.elim
  | saveJournal journal => exact ho.elim
  | clearJournal => exact ho.elim
  | savePrevious value => exact ho.elim
  | loadJournal => obtain ⟨-, rfl⟩ := h; exact .refl _
  | loadPrevious => obtain ⟨-, rfl⟩ := h; exact .refl _
  | fileDigest path => obtain ⟨-, rfl⟩ := h; exact .refl _
  | download url sizeBytes =>
      match a, h with
      | .failed none, h => exact h ▸ .refl _
      | .failed (some path), ⟨hpath, content, h⟩ =>
          exact h ▸ .put (not_isBackup_of_isStaged hpath)
      | .done path size digest, ⟨hpath, content, _, _, h⟩ =>
          exact h ▸ .put (not_isBackup_of_isStaged hpath)
  | copyFile src dest =>
      match a, h with
      | some d, ⟨content, _, _, h⟩ => exact h ▸ .put ho
      | none, .inl h => exact h ▸ .refl _
      | none, .inr h => exact .copiesPart ho h
  | rename src dest =>
      match a, h with
      | .done, h => exact .moves ho.1 ho.2 h
      | .missing, ⟨_, h⟩ => exact h ▸ .refl _
      | .failed, h => exact h ▸ .refl _
  | remove path =>
      obtain rfl | rfl := h
      · exact .put ho
      · exact .refl _
  | removeStaging => exact .drops (fun _ => id) h
  | pruneDisplaced => exact .drops (fun _ => id) h
  | now => exact h ▸ .refl _
  | makeStaging => exact h ▸ .refl _
  | verifyAuthenticode path => exact h ▸ .refl _
  | chmod path => exact h ▸ .refl _
  | restartService => exact h ▸ .refl _
  | checkHealth => exact h ▸ .refl _
  | report outcome => exact h ▸ .refl _

theorem keeps_of_torn {w w' : UpdateWorld} {o : UpdateOp} (ho : Aside o)
    (h : updateTorn w o w') : Keeps w w' := by
  cases o with
  | saveJournal journal => exact ho.elim
  | clearJournal => exact ho.elim
  | savePrevious value => exact ho.elim
  | download url sizeBytes =>
      obtain ⟨path, content, hpath, rfl⟩ := h
      exact .put (not_isBackup_of_isStaged hpath)
  | copyFile src dest => exact .copiesPart ho h
  | rename src dest => exact .moves ho.1 ho.2 h
  | remove path => exact h ▸ .put ho
  | removeStaging => exact .drops (fun _ => id) h
  | pruneDisplaced => exact .drops (fun _ => id) h
  | _ => exact h.elim

/-! ## What holds of the disk -/

/-- What the journal says of the files. -/
structure JournalSound (sha256 : Bytes → String) (d : UpdateDisk)
    (journal : UpdateJournal) : Prop where
  staged : ∀ path, journal.stagedPath = some path → path.IsStaged
  kept : journal.state = .installed → ∃ name,
    journal.backupPath = some (.backup name) ∧
      d.Holds sha256 (.backup name) journal.backupSHA256

structure Sound (sha256 : Bytes → String) (w : UpdateWorld) : Prop where
  undisturbed : ∀ d, w.since = some d → d.InFlight → d.Undisturbed w.disk
  journal : ∀ journal, w.disk.journal = .found journal →
    JournalSound sha256 w.disk journal
  retained : ∀ value, w.disk.previous = .found value → ∃ name,
    value.path = some (.backup name) ∧
      w.disk.Holds sha256 (.backup name) value.sha256

/-- The disk is sound, and no attempt was in flight when the command was
taken up: the program may go on. -/
structure Free (sha256 : Bytes → String) (w : UpdateWorld) : Prop where
  sound : Sound sha256 w
  quiet : ∀ d, w.since = some d → ¬ d.InFlight

theorem Sound.oneAttempt {w : UpdateWorld} (h : Sound sha256 w) :
    OneAttempt sha256 w :=
  ⟨h.undisturbed, fun value hv =>
    let ⟨name, hpath, hheld⟩ := h.retained value hv
    ⟨.backup name, hpath, hheld⟩⟩

theorem Holds.keeps {w w' : UpdateWorld} {name digest : String}
    (h : w.disk.Holds sha256 (.backup name) digest) (hk : Keeps w w') :
    w'.disk.Holds sha256 (.backup name) digest := by
  obtain ⟨content, hfile, hdigest⟩ := h
  exact ⟨content, (hk.backup name).trans hfile, hdigest⟩

theorem JournalSound.keeps {w w' : UpdateWorld} {journal : UpdateJournal}
    (h : JournalSound sha256 w.disk journal) (hk : Keeps w w') :
    JournalSound sha256 w'.disk journal := by
  refine ⟨h.staged, fun hi => ?_⟩
  obtain ⟨name, hpath, hheld⟩ := h.kept hi
  exact ⟨name, hpath, Holds.keeps hheld hk⟩

theorem Free.keeps {w w' : UpdateWorld} (h : Free sha256 w) (hk : Keeps w w') :
    Free sha256 w' := by
  have hquiet : ∀ d, w'.since = some d → ¬ d.InFlight :=
    fun d hd => h.quiet d (hk.since ▸ hd)
  refine ⟨⟨?_, ?_, ?_⟩, hquiet⟩
  · intro d hd hin
    exact absurd hin (hquiet d hd)
  · intro journal hj
    exact (h.sound.journal journal (hk.journal ▸ hj)).keeps hk
  · intro value hv
    obtain ⟨name, hpath, hheld⟩ := h.sound.retained value (hk.previous ▸ hv)
    exact ⟨name, hpath, Holds.keeps hheld hk⟩

theorem Free.setJournal {w : UpdateWorld} {loaded : Loaded UpdateJournal}
    (h : Free sha256 w) (hj : ∀ journal, loaded = .found journal →
      JournalSound sha256 w.disk journal) :
    Free sha256 (w.setJournal loaded) :=
  ⟨⟨fun d hd hin => absurd hin (h.quiet d hd),
    fun journal hl => ⟨(hj journal hl).staged, (hj journal hl).kept⟩,
    h.sound.retained⟩, h.quiet⟩

theorem Free.clearJournal {w : UpdateWorld} (h : Free sha256 w) :
    Free sha256 (w.setJournal .absent) :=
  Free.setJournal h fun _ hj => nomatch (hj : Loaded.absent = .found _)

theorem Free.setPrevious {w : UpdateWorld} {loaded : Loaded PreviousBuild}
    (h : Free sha256 w) (hv : ∀ value, loaded = .found value → ∃ name,
      value.path = some (.backup name) ∧
        w.disk.Holds sha256 (.backup name) value.sha256) :
    Free sha256 (w.setPrevious loaded) :=
  ⟨⟨fun d hd hin => absurd hin (h.quiet d hd),
    fun journal hj => ⟨(h.sound.journal journal hj).staged,
      (h.sound.journal journal hj).kept⟩, hv⟩, h.quiet⟩

/-! ## Programs -/

/-- Started in `w`, the program keeps the disk sound at every step and ends
in `Q`. -/
def Ending (sha256 : Bytes → String) {α : Type} (Q : α → UpdateWorld → Prop)
    (x : UpdateProg α) (w : UpdateWorld) : Prop :=
  wp (inTurnWorld sha256) (fun _ _ => True) (Sound sha256) Q x w

/-- The same for a condition of the world alone. -/
def Keeping (sha256 : Bytes → String) {α : Type} (Q : UpdateWorld → Prop)
    (x : UpdateProg α) (w : UpdateWorld) : Prop :=
  Ending sha256 (fun _ => Q) x w

variable {α β : Type} {Q : UpdateWorld → Prop} {w : UpdateWorld}

theorem keeping_pure {b : β} (h : Q w) :
    Keeping sha256 Q (pure b : UpdateProg β) w := h

/-- One action, whatever it does and whatever a crash leaves of it. -/
theorem keeping_act {o : UpdateOp} {f : o.Ans → UpdateProg β}
    (hs : Sound sha256 w)
    (htorn : ∀ v, updateTorn w o v → InTurn sha256 w o v → Sound sha256 v)
    (hf : ∀ a v, updateDoes sha256 w o a v → InTurn sha256 w o v →
      Keeping sha256 Q (f a) v) : Keeping sha256 Q (act o >>= f) w := by
  show wp (inTurnWorld sha256) (fun _ _ => True) (Sound sha256)
    (fun _ => Q) (.act o f) w
  exact wp_act.mpr ⟨trivial, hs,
    fun v ht => htorn v ht.1 ht.2, fun a v hd => hf a v hd.1 hd.2⟩

/-- A part of the program that is aside. -/
theorem keeping_aside {x : UpdateProg α} {f : α → UpdateProg β}
    (hx : x.Uses Aside) (hw : Free sha256 w)
    (hf : ∀ a v, Keeps w v → Free sha256 v → Keeping sha256 Q (f a) v) :
    Keeping sha256 Q (x >>= f) w := by
  refine wp_seq (Q := fun _ v => Keeps w v) ?_
    fun a v hk => hf a v hk (hw.keeps hk)
  exact wp_of_uses hx Keeps.refl Keeps.trans
    (fun v hk => (hw.keeps hk).sound) (fun _ _ _ _ => trivial)
    (fun v o v' ho ht => keeps_of_torn ho ht.1)
    (fun v o a v' ho hd => keeps_of_does ho hd.1)

/-- One action that is aside, with what its answer tells. -/
theorem keeping_asideAct {o : UpdateOp} {f : o.Ans → UpdateProg β}
    (ho : Aside o) (hw : Free sha256 w)
    (hf : ∀ a v, updateDoes sha256 w o a v → Keeps w v → Free sha256 v →
      Keeping sha256 Q (f a) v) : Keeping sha256 Q (act o >>= f) w :=
  keeping_act hw.sound (fun _ ht _ => (hw.keeps (keeps_of_torn ho ht)).sound)
    fun a v hd _ =>
      have hk := keeps_of_does ho hd
      hf a v hd hk (hw.keeps hk)

/-- Saving a journal that tells the truth of the files. After a failure the
file may have been replaced all the same. -/
theorem keeping_saveJournal {journal : UpdateJournal}
    {f : Bool → UpdateProg β} (hw : Free sha256 w)
    (hj : JournalSound sha256 w.disk journal)
    (hf : ∀ ok v, (v = w.setJournal (.found journal) ∨ ok = false ∧ v = w) →
      Free sha256 v → Keeping sha256 Q (f ok) v) :
    Keeping sha256 Q (saveJournal journal >>= f) w := by
  have hsaved : Free sha256 (w.setJournal (.found journal)) :=
    hw.setJournal fun j h => by
      cases h
      exact hj
  refine keeping_act hw.sound ?_ ?_
  · rintro v rfl -
    exact hsaved.sound
  · intro ok v hd _
    refine hf ok v hd ?_
    obtain rfl | ⟨-, rfl⟩ := hd
    · exact hsaved
    · exact hw

/-! ## Restoring -/

theorem uses_step {o : UpdateOp} {f : o.Ans → UpdateProg β} (h : Aside o)
    (hf : ∀ a, (f a).Uses Aside) : (act o >>= f).Uses Aside :=
  ⟨h, hf⟩

theorem uses_pure {a : α} : (pure a : UpdateProg α).Uses Aside := trivial

theorem uses_replaceRunningBinary {onWindows : Bool} {src dest : BuildFile}
    (hsrc : ¬ src.IsBackup) (hdest : ¬ dest.IsBackup) :
    (replaceRunningBinary onWindows src dest).Uses Aside := by
  cases onWindows with
  | false => exact uses_step ⟨hsrc, hdest⟩ fun _ => uses_pure
  | true =>
      refine uses_step trivial fun unixNano => ?_
      refine uses_step ⟨hdest, id⟩ fun displaced => ?_
      split
      · exact uses_pure
      · refine uses_step ⟨hsrc, hdest⟩ fun installed => ?_
        split
        · exact uses_pure
        · split
          · exact uses_step ⟨id, hdest⟩ fun _ => uses_pure
          · exact uses_pure

theorem uses_atomicReplace {onWindows : Bool} {src dest : BuildFile}
    (hsrc : ¬ src.IsBackup) (hdest : ¬ dest.IsBackup) :
    (atomicReplace onWindows src dest).Uses Aside := by
  refine uses_step trivial fun mode => ?_
  split
  · exact uses_pure
  · exact uses_replaceRunningBinary hsrc hdest

/-- A retained copy is restored by way of a file of its own. -/
theorem uses_restoreBackup {onWindows : Bool} {backup : Option BuildFile}
    {expectedDigest : String} :
    (restoreBackup onWindows backup expectedDigest).Uses Aside := by
  cases backup with
  | none => exact uses_pure
  | some path =>
      refine uses_step trivial fun actual => ?_
      split
      · exact uses_pure
      · split
        · exact uses_pure
        · refine uses_step id fun copied => ?_
          split
          · exact uses_step id fun _ => uses_pure
          · refine (uses_atomicReplace id id).bind fun replaced => ?_
            split
            · exact uses_pure
            · exact uses_step id fun _ => uses_pure

/-! ## Updates -/

/-- The journal's staged file is one, whatever else it says. -/
def StagedPath (journal : UpdateJournal) : Prop :=
  ∀ path, journal.stagedPath = some path → path.IsStaged

theorem StagedPath.sound {journal : UpdateJournal} {d : UpdateDisk}
    (h : StagedPath journal) (hstate : journal.state ≠ .installed) :
    JournalSound sha256 d journal :=
  ⟨h, fun hi => absurd hi hstate⟩

/-- A last save of a journal that is not in flight. -/
theorem keeping_closeJournal {journal : UpdateJournal} {b : β}
    (hw : Free sha256 w) (hj : StagedPath journal)
    (hstate : journal.state ≠ .installed) :
    Keeping sha256 (Free sha256) (saveJournal journal >>= fun _ => pure b) w :=
  keeping_saveJournal hw (hj.sound hstate) fun _ _ _ hv => keeping_pure hv

theorem keeping_requestRestart {onWindows : Bool} {journal : UpdateJournal}
    {res : UpdateResult} (hw : Free sha256 w) (hj : StagedPath journal) :
    Keeping sha256 (Free sha256) (requestRestart onWindows journal res) w := by
  refine keeping_asideAct trivial hw fun requested v _ _ hw => ?_
  split
  · exact keeping_pure hw
  · refine keeping_aside uses_restoreBackup hw fun restored u _ hw => ?_
    split
    · exact keeping_closeJournal hw hj (by simp)
    · exact keeping_closeJournal hw hj (by simp)

/-- The retained copy the journal names is there. -/
def KeptCopy (sha256 : Bytes → String) (w : UpdateWorld)
    (journal : UpdateJournal) : Prop :=
  ∃ name, journal.backupPath = some (.backup name) ∧
    w.disk.Holds sha256 (.backup name) journal.backupSHA256

theorem KeptCopy.keeps {v : UpdateWorld} {journal : UpdateJournal}
    (h : KeptCopy sha256 w journal) (hk : Keeps w v) :
    KeptCopy sha256 v journal := by
  obtain ⟨name, hpath, hheld⟩ := h
  exact ⟨name, hpath, Holds.keeps hheld hk⟩

theorem keeping_swapBuild {onWindows : Bool} {stagedPath : BuildFile}
    {journal : UpdateJournal} {res : UpdateResult} (hw : Free sha256 w)
    (hstaged : stagedPath.IsStaged) (hj : StagedPath journal)
    (hkept : KeptCopy sha256 w journal) :
    Keeping sha256 (Free sha256)
      (swapBuild onWindows stagedPath journal res) w := by
  have hnot := not_isBackup_of_isStaged hstaged
  refine keeping_aside (uses_atomicReplace hnot id) hw fun replaced v hk hw => ?_
  split
  · refine keeping_saveJournal hw ⟨nofun, fun _ => hkept.keeps hk⟩ ?_
    intro ok u _ hw
    split
    · exact keeping_requestRestart hw nofun
    · refine keeping_aside uses_restoreBackup hw fun _ u _ hw => ?_
      exact keeping_pure hw
  · refine keeping_aside uses_restoreBackup hw fun _ u _ hw => ?_
    refine keeping_asideAct hnot hw fun _ u _ _ hw => ?_
    exact keeping_closeJournal hw hj (by simp)

/-- The journal on disk is not that of an installed build. -/
def NotInstalled (w : UpdateWorld) : Prop :=
  ∀ journal, w.disk.journal = .found journal → journal.state ≠ .installed

/-- Copying onto a retained copy, in turn, while no build is installed. -/
theorem Free.copy {v : UpdateWorld} {name : String} {src : BuildFile}
    (hw : Free sha256 w) (hn : NotInstalled w)
    (hv : v = w ∨ ∃ content, v = w.put (.backup name) content)
    (hturn : InTurn sha256 w (.copyFile src (.backup name)) v) :
    Free sha256 v := by
  obtain rfl | ⟨content, rfl⟩ := hv
  · exact hw
  refine ⟨⟨fun d hd hin => absurd hin (hw.quiet d hd), ?_, ?_⟩, hw.quiet⟩
  · intro journal h
    exact StagedPath.sound (hw.sound.journal journal h).staged (hn journal h)
  · intro value hvalue
    obtain ⟨other, hpath, hheld⟩ := hw.sound.retained value hvalue
    refine ⟨other, hpath, ?_⟩
    by_cases hname : other = name
    · subst hname
      obtain hsame | ⟨⟨copied, hsrc, hdigest⟩, _, hsrc', hput⟩ :=
        hturn value hvalue hpath
      · rw [hsame]
        exact hheld
      · rw [hput]
        refine ⟨copied, ?_, hdigest⟩
        rw [← hsrc, hsrc']
        exact Function.update_self _ _ _
    · obtain ⟨kept, hfile, hdigest⟩ := hheld
      refine ⟨kept, ?_, hdigest⟩
      rw [← hfile]
      exact Function.update_of_ne (by simpa using hname) _ _

theorem keeping_installStaged {onWindows : Bool} {stagedPath : BuildFile}
    {journal : UpdateJournal} {name : String} {res : UpdateResult}
    (hw : Free sha256 w) (hn : NotInstalled w) (hstaged : stagedPath.IsStaged)
    (hj : StagedPath journal) (hstate : journal.state = .staged)
    (hpath : journal.backupPath = some (.backup name)) :
    Keeping sha256 (Free sha256)
      (installStaged onWindows stagedPath journal (.backup name) res) w := by
  have hnot := not_isBackup_of_isStaged hstaged
  refine keeping_act (o := .copyFile .executable (.backup name)) hw.sound ?_ ?_
  · rintro v ⟨content, part, -, -, rfl⟩ hturn
    exact (hw.copy hn (.inr ⟨_, rfl⟩) hturn).sound
  · intro digest v hd hturn
    cases digest with
    | none =>
        have hput : v = w ∨ ∃ content, v = w.put (.backup name) content := by
          obtain h | ⟨content, part, -, -, h⟩ := hd
          · exact .inl h
          · exact .inr ⟨_, h⟩
        refine keeping_asideAct hnot (hw.copy hn hput hturn)
          fun _ u _ _ hw => ?_
        exact keeping_closeJournal hw hj (by simp)
    | some d =>
        obtain ⟨content, -, hdigest, rfl⟩ := hd
        have hkept : KeptCopy sha256 (w.put (.backup name) (some content))
            { journal with backupSHA256 := d } :=
          ⟨name, hpath, content, Function.update_self _ _ _, hdigest.symm⟩
        refine keeping_saveJournal (hw.copy hn (.inr ⟨_, rfl⟩) hturn)
          ⟨hj, fun hi => absurd (hstate.symm.trans hi) nofun⟩ ?_
        intro ok v hv hw
        split
        · refine keeping_swapBuild hw hstaged hj ?_
          obtain rfl | ⟨-, rfl⟩ := hv
          · exact hkept
          · exact hkept
        · refine keeping_asideAct hnot hw fun _ u _ _ hw => ?_
          exact keeping_pure hw

theorem keeping_stageAttempt {onWindows : Bool} {sameName : String → String}
    {opts : UpdateOptions} {commandID : String} {p : UpdatePayload}
    {stagedPath : BuildFile} {res : UpdateResult} (hw : Free sha256 w)
    (hstaged : stagedPath.IsStaged) :
    Keeping sha256 (Free sha256)
      (stageAttempt onWindows sameName opts commandID p stagedPath res) w := by
  refine keeping_asideAct trivial hw fun deadline v _ _ hw => ?_
  refine keeping_asideAct trivial hw fun started u _ _ hw => ?_
  refine keeping_saveJournal hw ⟨?_, nofun⟩ ?_
  · rintro path ⟨⟩
    exact hstaged
  · intro ok v hv hw
    split
    · next hok =>
      refine keeping_installStaged hw ?_ hstaged ?_ rfl rfl
      · obtain rfl | ⟨hfailed, -⟩ := hv
        · rintro journal ⟨⟩
          nofun
        · exact absurd (hok.symm.trans hfailed) nofun
      · rintro path ⟨⟩
        exact hstaged
    · refine keeping_asideAct (not_isBackup_of_isStaged hstaged) hw
        fun _ u _ _ hw => ?_
      exact keeping_pure hw

theorem uses_checkSigner {p : UpdatePayload} {stagedPath : BuildFile} :
    (checkSigner p stagedPath).Uses Aside := by
  rw [checkSigner]
  split
  · exact uses_pure
  · refine uses_step trivial fun signer => ?_
    split
    · exact uses_pure
    · exact uses_pure

theorem keeping_discard {path : BuildFile} {b : β} (hw : Free sha256 w)
    (hpath : path.IsStaged) :
    Keeping sha256 (Free sha256) (removeFile path >>= fun _ => pure b) w :=
  keeping_asideAct (not_isBackup_of_isStaged hpath) hw
    fun _ _ _ _ hw => keeping_pure hw

theorem keeping_stageArtifact {onWindows : Bool} {sameName : String → String}
    {opts : UpdateOptions} {commandID : String} {p : UpdatePayload}
    {res : UpdateResult} (hw : Free sha256 w) :
    Keeping sha256 (Free sha256)
      (stageArtifact onWindows sameName opts commandID p res) w := by
  refine keeping_asideAct trivial hw fun transfer v hd _ hw => ?_
  match transfer, hd with
  | .failed none, _ => exact keeping_pure hw
  | .failed (some path), ⟨hpath, _⟩ => exact keeping_discard hw hpath
  | .done path size digest, ⟨hpath, _⟩ =>
      simp only []
      split
      · exact keeping_discard hw hpath
      · split
        · exact keeping_discard hw hpath
        · refine keeping_aside uses_checkSigner hw fun signed u _ hw => ?_
          split
          · exact keeping_stageAttempt hw hpath
          · exact keeping_discard hw hpath

theorem keeping_executeUpdate {onWindows : Bool} {sameName : String → String}
    {opts : UpdateOptions} {commandID : String}
    {payload : Option UpdatePayload} (hw : Free sha256 w) :
    Keeping sha256 (Free sha256)
      (executeUpdate onWindows sameName opts commandID payload) w := by
  have proceeds : ∀ {p res v}, Free sha256 v → Keeping sha256 (Free sha256)
      (executeUpdate.proceed onWindows sameName opts commandID p res) v := by
    intro p res v hw
    refine keeping_asideAct trivial hw fun made u _ _ hw => ?_
    split
    · exact keeping_stageArtifact hw
    · exact keeping_pure hw
  cases payload with
  | none => exact keeping_pure hw
  | some p =>
      simp only [executeUpdate]
      split
      · exact keeping_pure hw
      · refine keeping_asideAct trivial hw fun existing v _ _ hw => ?_
        split
        · exact keeping_pure hw
        · split
          · exact keeping_pure hw
          · exact proceeds hw
        · exact proceeds hw

/-- An update while another attempt is in flight is refused. -/
theorem keeping_executeUpdate_inFlight {onWindows : Bool}
    {sameName : String → String} {opts : UpdateOptions} {commandID : String}
    {payload : Option UpdatePayload} (hs : Sound sha256 w)
    (hin : w.disk.InFlight) :
    Keeping sha256 (Sound sha256)
      (executeUpdate onWindows sameName opts commandID payload) w := by
  obtain ⟨journal, hjournal, hstate⟩ := hin
  cases payload with
  | none => exact keeping_pure hs
  | some p =>
      simp only [executeUpdate]
      split
      · exact keeping_pure hs
      · refine keeping_act (o := .loadJournal) hs (fun _ ht _ => ht.elim) ?_
        rintro existing v ⟨hloaded, rfl⟩ -
        obtain rfl | rfl := hloaded
        · exact keeping_pure hs
        · simp only [hjournal, if_pos hstate]
          exact keeping_pure hs

/-! ## Rollback on request -/

theorem uses_loadPrevious : loadPrevious.Uses Aside := by
  refine uses_step trivial fun loaded => ?_
  cases loaded with
  | found value =>
      simp only []
      split
      · exact uses_pure
      · exact uses_pure
  | failed => exact uses_pure
  | absent => exact uses_pure

theorem keeping_executeRollback {onWindows : Bool} {opts : UpdateOptions}
    {commandID : String} {payload : Option RollbackPayload}
    (hw : Free sha256 w) :
    Keeping sha256 (Free sha256)
      (executeRollback onWindows opts commandID payload) w := by
  cases payload with
  | none => exact keeping_pure hw
  | some p =>
      simp only [executeRollback]
      split
      · exact keeping_pure hw
      · refine keeping_aside uses_loadPrevious hw fun previous v _ hw => ?_
        split
        · exact keeping_pure hw
        · exact keeping_pure hw
        · refine keeping_aside uses_restoreBackup hw fun restored v _ hw => ?_
          split
          · refine keeping_asideAct trivial hw fun started v _ _ hw => ?_
            refine keeping_asideAct trivial hw fun deadline v _ _ hw => ?_
            refine keeping_saveJournal hw ⟨nofun, nofun⟩ fun saved v _ hw => ?_
            split
            · refine keeping_asideAct trivial hw fun requested v _ _ hw => ?_
              split
              · exact keeping_pure hw
              · exact keeping_pure hw
            · exact keeping_pure hw
          · exact keeping_pure hw

/-- A read that leaves the world as it is. -/
theorem ending_read {R : β → UpdateWorld → Prop} {o : UpdateOp}
    {f : o.Ans → UpdateProg β} (hs : Sound sha256 w)
    (htorn : ∀ v, ¬ updateTorn w o v)
    (hsame : ∀ a v, updateDoes sha256 w o a v → v = w)
    (hf : ∀ a, updateDoes sha256 w o a w → Ending sha256 R (f a) w) :
    Ending sha256 R (act o >>= f) w := by
  refine wp_act.mpr ⟨trivial, hs, fun v ht => absurd ht.1 (htorn v), ?_⟩
  intro a v hd
  obtain rfl := hsame a v hd.1
  exact hf a hd.1

/-- A retained copy that is not as recorded is not restored. -/
theorem restoreBackup_refuses {onWindows : Bool} {path : BuildFile}
    {digest : String} (hs : Sound sha256 w) (hdigest : digest ≠ "")
    (hno : ¬ w.disk.Holds sha256 path digest) :
    Ending sha256 (fun restored v => restored = false ∧ v = w)
      (restoreBackup onWindows (some path) digest) w := by
  refine ending_read hs (fun _ => id) (fun _ _ hd => hd.2) ?_
  rintro actual ⟨hactual, -⟩
  cases actual with
  | none => exact ⟨rfl, rfl⟩
  | some d =>
      obtain ⟨content, hfile, rfl⟩ := hactual d rfl
      have hne : sha256 content ≠ digest := fun h => hno ⟨content, hfile, h⟩
      simp only [if_pos (And.intro hdigest hne)]
      exact ⟨rfl, rfl⟩

/-- What `loadPrevious` finds is on the disk, and complete. -/
theorem loadPrevious_reads (hs : Sound sha256 w) :
    Ending sha256 (fun loaded v => v = w ∧ ∀ value, loaded = .found value →
      w.disk.previous = .found value ∧ value.path ≠ none ∧
        sha256Pattern value.sha256 = true) loadPrevious w := by
  refine ending_read hs (fun _ => id) (fun _ _ hd => hd.2) ?_
  rintro loaded ⟨hloaded, -⟩
  cases loaded with
  | failed => exact ⟨rfl, nofun⟩
  | absent => exact ⟨rfl, nofun⟩
  | found value =>
      simp only []
      split
      · exact ⟨rfl, nofun⟩
      · next hcomplete =>
        obtain ⟨hpath, hpattern⟩ := not_or.mp hcomplete
        refine ⟨rfl, ?_⟩
        rintro _ ⟨⟩
        exact ⟨(hloaded.resolve_left nofun).symm, hpath, by simpa using hpattern⟩

theorem ne_empty_of_sha256Pattern {s : String} (h : sha256Pattern s = true) :
    s ≠ "" := by
  rintro rfl
  exact absurd h (by decide)

/-- A rollback that would not act changes nothing. -/
theorem keeping_executeRollback_inFlight {onWindows : Bool}
    {opts : UpdateOptions} {commandID : String}
    {payload : Option RollbackPayload} (hs : Sound sha256 w)
    (hno : ∀ p, payload = some p → refuseRollback opts p = none →
      ∀ value path, w.disk.previous = .found value → value.path = some path →
        sha256Pattern value.sha256 = true →
          ¬ w.disk.Holds sha256 path value.sha256) :
    Keeping sha256 (Sound sha256)
      (executeRollback onWindows opts commandID payload) w := by
  cases payload with
  | none => exact keeping_pure hs
  | some p =>
      simp only [executeRollback]
      split
      · exact keeping_pure hs
      · next hpass =>
        refine wp_seq (loadPrevious_reads hs) ?_
        rintro loaded v ⟨rfl, hloaded⟩
        cases loaded with
        | failed => exact hs
        | absent => exact hs
        | found value =>
            obtain ⟨hprevious, hpath, hpattern⟩ := hloaded value rfl
            obtain ⟨path, hpath⟩ := Option.ne_none_iff_exists'.mp hpath
            simp only [hpath]
            refine wp_seq (restoreBackup_refuses hs
              (ne_empty_of_sha256Pattern hpattern)
              (hno p rfl hpass value path hprevious hpath hpattern)) ?_
            rintro _ v ⟨rfl, rfl⟩
            exact hs

/-! ## Recovery at start -/

theorem keeping_rollbackAttempt {onWindows : Bool} {journal : UpdateJournal}
    {reason : String} (hw : Free sha256 w) (hj : StagedPath journal) :
    Keeping sha256 (Free sha256)
      (rollbackAttempt onWindows journal reason) w := by
  refine keeping_aside uses_restoreBackup hw fun restored v _ hw => ?_
  split
  · refine keeping_saveJournal hw ⟨hj, nofun⟩ fun saved v _ hw => ?_
    split
    · refine keeping_asideAct trivial hw fun _ v _ _ hw => ?_
      exact keeping_pure hw
    · exact keeping_pure hw
  · exact keeping_closeJournal hw hj (by simp)

/-- Recording a previous build whose copy is there. The record is written in
place: a failure may leave one that does not parse. -/
theorem keeping_savePrevious {value : PreviousBuild} (hw : Free sha256 w)
    (hkept : ∃ name, value.path = some (.backup name) ∧
      w.disk.Holds sha256 (.backup name) value.sha256) :
    Keeping sha256 (Free sha256) (savePrevious value) w := by
  have hfound : Free sha256 (w.setPrevious (.found value)) :=
    hw.setPrevious fun v h => by
      cases h
      exact hkept
  have hgarbled : Free sha256 (w.setPrevious .failed) :=
    hw.setPrevious fun _ h => nomatch (h : Loaded.failed = .found _)
  rw [savePrevious]
  split
  · exact keeping_pure hw
  · refine keeping_act hw.sound ?_ ?_
    · rintro v (rfl | rfl) -
      · exact hfound.sound
      · exact hgarbled.sound
    · rintro saved v (rfl | ⟨-, rfl | rfl⟩) -
      · exact hfound
      · exact hw
      · exact hgarbled

/-- The copy an installed journal names becomes the previous build. -/
theorem keeping_commitAttempt {journal : UpdateJournal} (hw : Free sha256 w)
    (hj : StagedPath journal) (hkept : KeptCopy sha256 w journal) :
    Keeping sha256 (Free sha256) (commitAttempt journal) w := by
  refine wp_seq (keeping_savePrevious hw hkept) fun kept v hw => ?_
  split
  · refine keeping_saveJournal hw ⟨hj, nofun⟩ fun saved v _ hw => ?_
    split
    · refine keeping_asideAct trivial hw fun _ v _ _ hw => ?_
      refine keeping_asideAct trivial hw fun _ v _ _ hw => ?_
      exact keeping_pure hw
    · exact keeping_pure hw
  · exact hw

theorem uses_deadlinePassed {deadline : Option Int} :
    (resolveInstalled.deadlinePassed deadline).Uses Aside := by
  cases deadline with
  | none => exact uses_pure
  | some d => exact uses_step trivial fun _ => uses_pure

theorem keeping_resolveInstalled {onWindows : Bool} {opts : UpdateOptions}
    {journal : UpdateJournal} (hw : Free sha256 w) (hj : StagedPath journal)
    (hkept : KeptCopy sha256 w journal) :
    Keeping sha256 (Free sha256) (resolveInstalled onWindows opts journal) w := by
  refine keeping_saveJournal hw ⟨hj, fun _ => hkept⟩ fun saved v hv hw => ?_
  have hkept : KeptCopy sha256 v journal := by
    obtain rfl | ⟨-, rfl⟩ := hv
    · exact hkept
    · exact hkept
  split
  · exact keeping_pure hw
  split
  · exact keeping_rollbackAttempt hw hj
  split
  · exact keeping_rollbackAttempt hw hj
  split
  · exact keeping_rollbackAttempt hw hj
  refine keeping_aside uses_deadlinePassed hw fun late u hk hw => ?_
  split
  · exact keeping_rollbackAttempt hw hj
  refine keeping_asideAct trivial hw fun healthy u _ hk' hw => ?_
  split
  · exact keeping_commitAttempt hw hj ((hkept.keeps hk).keeps hk')
  · exact keeping_rollbackAttempt hw hj

theorem uses_discardStaged {stagedPath : Option BuildFile}
    (h : ∀ path, stagedPath = some path → path.IsStaged) :
    (discardStaged stagedPath).Uses Aside := by
  cases stagedPath with
  | none => exact uses_pure
  | some path =>
      exact uses_step (not_isBackup_of_isStaged (h path rfl)) fun _ => uses_pure

/-- Whatever a start finds, its recovery leaves the disk sound. -/
theorem keeping_resolve {onWindows : Bool} {opts : UpdateOptions}
    (hw : Free sha256 w) :
    Keeping sha256 (Free sha256) (resolve onWindows opts) w := by
  have cleared := hw.clearJournal
  refine ending_read (o := .loadJournal) hw.sound (fun _ => id)
    (fun _ _ hd => hd.2) ?_
  rintro loaded ⟨hloaded, -⟩
  cases loaded with
  | absent => exact keeping_pure hw
  | failed =>
      refine keeping_act hw.sound ?_ ?_
      · rintro v rfl -
        exact cleared.sound
      · rintro ok v (rfl | ⟨-, rfl⟩) -
        · exact keeping_pure cleared
        · exact keeping_pure hw
  | found journal =>
      have hj := hw.sound.journal journal (hloaded.resolve_left nofun).symm
      cases hstate : journal.state with
      | staged =>
          simp only [hstate]
          refine keeping_aside (uses_discardStaged hj.staged) hw fun _ v _ hw => ?_
          refine keeping_saveJournal hw ⟨hj.staged, nofun⟩ fun ok v _ hw => ?_
          split
          · exact keeping_pure hw
          · exact keeping_pure hw
      | installed =>
          simp only [hstate]
          exact keeping_resolveInstalled hw hj.staged (hj.kept hstate)
      | committed => simp only [hstate]; exact keeping_pure hw
      | rolledBack => simp only [hstate]; exact keeping_pure hw
      | failed => simp only [hstate]; exact keeping_pure hw
      | other text =>
          simp only [hstate]
          exact keeping_closeJournal hw hj.staged (by simp)

theorem keeping_acknowledge (hw : Free sha256 w) :
    Keeping sha256 (Free sha256) acknowledge w := by
  have clear : ∀ {v}, Free sha256 v → Keeping sha256 (Free sha256) (do
      let _ ← act .clearJournal
      pure () : UpdateProg Unit) v := by
    intro v hw
    have cleared := hw.clearJournal
    refine keeping_act hw.sound ?_ ?_
    · rintro u rfl -
      exact cleared.sound
    · rintro ok u (rfl | ⟨-, rfl⟩) -
      · exact keeping_pure cleared
      · exact keeping_pure hw
  refine keeping_asideAct trivial hw fun loaded v _ _ hw => ?_
  cases loaded with
  | found journal =>
      simp only []
      split
      · exact keeping_pure hw
      · exact clear hw
  | absent => exact clear hw
  | failed => exact clear hw

theorem keeping_resolveSelfUpdate {onWindows : Bool} {opts : UpdateOptions}
    (hw : Free sha256 w) :
    Keeping sha256 (Free sha256) (resolveSelfUpdate onWindows opts) w := by
  rw [resolveSelfUpdate]
  split
  · exact keeping_pure hw
  · refine wp_seq (keeping_resolve hw) fun ended v hw => ?_
    cases ended with
    | outcome status journal =>
        refine keeping_asideAct trivial hw fun reported u _ _ hw => ?_
        split
        · exact keeping_acknowledge hw
        · exact keeping_pure hw
    | failed => exact hw
    | nothing => exact hw

/-! ## Runs -/

variable {onWindows : Bool} {sameName : String → String}

theorem keeping_execute {opts : UpdateOptions} {cmd : UpdateCommand}
    (hw : Free sha256 w) :
    Keeping sha256 (Free sha256) (execute onWindows sameName opts cmd) w := by
  rw [execute]
  split
  · exact keeping_pure hw
  · cases cmd with
    | selfUpdate commandID payload => exact keeping_executeUpdate hw
    | rollback commandID payload => exact keeping_executeRollback hw

/-- A command taken up in turn while an attempt is in flight. -/
theorem keeping_execute_inFlight {opts : UpdateOptions} {cmd : UpdateCommand}
    {v : UpdateWorld} (hs : Sound sha256 w) (hin : w.disk.InFlight)
    (hdisk : v.disk = w.disk) (hturn : InTurn sha256 v (.takesUp opts cmd) w) :
    Keeping sha256 (Sound sha256) (execute onWindows sameName opts cmd) w := by
  rw [execute]
  split
  · exact keeping_pure hs
  · next o ho =>
    cases cmd with
    | selfUpdate commandID payload => exact keeping_executeUpdate_inFlight hs hin
    | rollback commandID payload =>
        refine keeping_executeRollback_inFlight hs ?_
        rintro p rfl hpass value path hprevious hpath hpattern hheld
        refine hturn (hdisk ▸ hin) ⟨⟨o, ho, hpass⟩, value, path, ?_⟩
        rw [hdisk]
        exact ⟨hprevious, hpath, hpattern, hheld⟩

theorem Sound.takesUp (hs : Sound sha256 w) :
    Sound sha256 { w with since := some w.disk } := by
  refine ⟨?_, fun journal hj => ⟨(hs.journal journal hj).staged,
    (hs.journal journal hj).kept⟩, hs.retained⟩
  rintro d ⟨⟩ -
  exact ⟨rfl, rfl, fun _ => rfl⟩

theorem keeping_runCommand {opts : UpdateOptions} {cmd : UpdateCommand}
    (hs : Sound sha256 w) :
    Keeping sha256 (Sound sha256) (runCommand onWindows sameName opts cmd) w := by
  refine keeping_act (o := .takesUp opts cmd) hs (fun _ ht _ => ht.elim) ?_
  rintro _ v rfl hturn
  have hs := hs.takesUp
  by_cases hin : w.disk.InFlight
  · exact wp_seq (keeping_execute_inFlight (v := w) hs hin rfl hturn)
      fun _ v hs => hs
  · have hw : Free sha256 { w with since := some w.disk } := by
      refine ⟨hs, ?_⟩
      rintro d ⟨⟩
      exact hin
    exact wp_seq (keeping_execute hw) fun _ v hw => hw.sound

theorem keeping_bootUpdates (hs : Sound sha256 w) :
    Keeping sha256 (Sound sha256) (bootUpdates onWindows) w := by
  refine keeping_act (o := .starts) hs (fun _ ht _ => ht.elim) ?_
  rintro opts v rfl -
  have hw : Free sha256 { w with since := none } :=
    ⟨⟨fun _ hd => (nomatch hd), fun journal hj =>
      ⟨(hs.journal journal hj).staged, (hs.journal journal hj).kept⟩,
      hs.retained⟩, fun _ hd => (nomatch hd)⟩
  exact wp_seq (keeping_resolveSelfUpdate hw) fun _ v hw => hw.sound

/-- A machine on which the agent has just been installed. -/
def freshInstall (files : BuildFile → Option Bytes) : UpdateWorld where
  disk := { files := files }

theorem sound_freshInstall {files : BuildFile → Option Bytes} :
    Sound sha256 (freshInstall files) :=
  ⟨fun _ h => (nomatch h), fun _ h => (nomatch h), fun _ h => (nomatch h)⟩

/-- In every run whose steps are in turn there is one attempt at a time: a
command taken up while an attempt is in flight leaves the executable, the
retained copies and the journal alone, and the previous record names the
digest of the file that is kept. -/
theorem inTurn_oneAttempt (onWindows : Bool) (sameName : String → String)
    (sha256 : Bytes → String) {files : BuildFile → Option Bytes}
    {c : UpdateWorld × Proc UpdateOp UpdateOp.Ans UpdateOptions}
    (hrun : (updateMachine onWindows sameName).Run (inTurnWorld sha256)
      (freshInstall files, .down) c) : OneAttempt sha256 c.1 := by
  have hgood : Machine.Good (inTurnWorld sha256) (fun _ _ => True)
      (Sound sha256) (fun (_ : UpdateOptions) w => Sound sha256 w) c := by
    have hfresh : Machine.Good (inTurnWorld sha256) (fun _ _ => True)
        (Sound sha256) (fun (_ : UpdateOptions) w => Sound sha256 w)
        (freshInstall files, .down) := sound_freshInstall
    refine Machine.good_run (G := fun _ _ => True) (C := Sound sha256)
      (I := fun _ w => Sound sha256 w) (fun _ _ hs => hs) ?_ ?_ hfresh hrun
    · intro w hs
      exact wp_mono (keeping_bootUpdates hs) fun r v hv => by
        cases r <;> exact hv
    · intro opts p w hs hp
      obtain ⟨cmd, rfl⟩ := hp
      exact wp_mono (keeping_runCommand hs) fun r v hv => by
        cases r <;> exact hv
  have hsound : Sound sha256 c.1 :=
    Machine.Good.crash (I := fun _ w => Sound sha256 w) (fun _ _ hs => hs) hgood
  exact hsound.oneAttempt

/-! ## Sample runs -/

/-- SHA-256 of the contents that occur below. -/
def sampleDigest (content : Bytes) : String :=
  if content = "a".toUTF8.toList then
    "ca978112ca1bbdcafac231b39a23dc4da786eff8147c4e72b9807785afee48bb"
  else if content = "abc".toUTF8.toList then releaseDigest
  else "e3b0c44298fc1c149afbf4c8996fb92427ae41e4649b934ca495991b7852b855"

/-- The build the executable starts as. -/
def startedOptions (d : UpdateDisk) : UpdateOptions :=
  optionsOf (if d.files .executable = some "a".toUTF8.toList then "1.0.0"
    else "1.1.0")

/-- A world in which all goes well, except that a copy onto a file that is
there is cut off, and previous builds are recorded only where `records`. -/
def sampleAnswer (records : Bool) (w : UpdateWorld) :
    (o : UpdateOp) → o.Ans × UpdateWorld
  | .starts => (startedOptions w.disk, { w with since := none })
  | .takesUp _ _ => ((), { w with since := some w.disk })
  | .now => ((0 : Int), w)
  | .loadJournal => (w.disk.journal, w)
  | .saveJournal journal => (true, w.setJournal (.found journal))
  | .clearJournal => (true, w.setJournal .absent)
  | .loadPrevious => (w.disk.previous, w)
  | .savePrevious value =>
    if records then (true, w.setPrevious (.found value)) else (false, w)
  | .makeStaging => (true, w)
  | .download _ _ =>
    (DownloadEnd.done (.staged 0) 3 releaseDigest,
      w.put (.staged 0) (some "abc".toUTF8.toList))
  | .verifyAuthenticode _ => ((none : Option (Bool × String)), w)
  | .fileDigest path => ((w.disk.files path).map sampleDigest, w)
  | .copyFile src dest =>
    match w.disk.files src, w.disk.files dest with
    | none, _ => ((none : Option String), w)
    | some content, none =>
      (some (sampleDigest content), w.put dest (some content))
    | some _, some _ => ((none : Option String), w.put dest (some []))
  | .chmod _ => (FileEnd.done, w)
  | .rename src dest =>
    match w.disk.files src with
    | none => (FileEnd.missing, w)
    | some content => (FileEnd.done, (w.put dest (some content)).put src none)
  | .remove path => ((), w.put path none)
  | .removeStaging => ((), w)
  | .pruneDisplaced => ((), w)
  | .restartService => (true, w)
  | .checkHealth => (true, w)
  | .report _ => (true, w)

theorem sampleAnswer_lawful {records : Bool} {w : UpdateWorld} {o : UpdateOp} :
    updateDoes sampleDigest w o (sampleAnswer records w o).1
      (sampleAnswer records w o).2 := by
  cases o with
  | loadJournal => exact ⟨.inr rfl, rfl⟩
  | loadPrevious => exact ⟨.inr rfl, rfl⟩
  | saveJournal journal => exact .inl rfl
  | clearJournal => exact .inl rfl
  | savePrevious value =>
      cases records with
      | true => exact .inl rfl
      | false => exact .inr ⟨rfl, .inl rfl⟩
  | download url sizeBytes =>
      refine ⟨trivial, "abc".toUTF8.toList, ?_, ?_, rfl⟩
      · decide +kernel
      · decide +kernel
  | fileDigest path =>
      refine ⟨fun d hd => ?_, rfl⟩
      obtain ⟨content, hfile, hdigest⟩ := Option.map_eq_some_iff.mp hd
      exact ⟨content, hfile, hdigest.symm⟩
  | copyFile src dest =>
      simp only [sampleAnswer]
      split
      · exact .inl rfl
      · next content hsrc _ => exact ⟨content, hsrc, rfl, rfl⟩
      · next content _ hsrc _ =>
        exact .inr ⟨content, [], hsrc, List.nil_prefix, rfl⟩
  | rename src dest =>
      simp only [sampleAnswer]
      split
      · next hsrc => exact ⟨hsrc, rfl⟩
      · next content hsrc => exact ⟨content, hsrc, rfl⟩
  | remove path => exact .inl rfl
  | removeStaging => exact ⟨w.disk.files, fun _ _ => rfl, rfl⟩
  | pruneDisplaced => exact ⟨w.disk.files, fun _ _ => rfl, rfl⟩
  | _ => rfl

def sampleScript : Script (updateWorld sampleDigest) where
  answer := sampleAnswer true
  covers := fun _ => True
  lawful := fun _ _ _ => sampleAnswer_lawful
  closed := fun _ _ _ => trivial

/-- A command, or with none of them a restart, played from where the agent
stands. -/
def playTurn {wd : World UpdateOp UpdateOp.Ans UpdateWorld} (sc : Script wd)
    (c : UpdateWorld × Option UpdateOptions) (cmd : Option UpdateCommand) :
    UpdateWorld × Option UpdateOptions :=
  sc.turn (updateMachine false id)
    (fun s => runCommand false id s (cmd.getD (.rollback "" none)))
    (if cmd.isSome then c else (c.1, none))

theorem run_playTurn {wd : World UpdateOp UpdateOp.Ans UpdateWorld}
    (sc : Script wd) (cmd : Option UpdateCommand)
    {c : UpdateWorld × Option UpdateOptions} (hc : sc.covers c.1) :
    (updateMachine false id).Run wd (c.1, .ofOption c.2)
      ((playTurn sc c cmd).1, .ofOption (playTurn sc c cmd).2) ∧
      sc.covers (playTurn sc c cmd).1 := by
  have hnext : ∀ s, (updateMachine false id).starts s
      (runCommand false id s (cmd.getD (.rollback "" none))) :=
    fun s => ⟨_, rfl⟩
  cases cmd with
  | some cmd => exact ⟨sc.run_turn hnext hc, sc.covers_turn hc⟩
  | none =>
      have hrun := sc.run_turn (c := (c.1, none)) hnext hc
      exact ⟨hrun.head .crash, sc.covers_turn (c := (c.1, none)) hc⟩

theorem run_playTurns {wd : World UpdateOp UpdateOp.Ans UpdateWorld}
    (sc : Script wd) (cmds : List (Option UpdateCommand))
    {c : UpdateWorld × Option UpdateOptions} (hc : sc.covers c.1) :
    (updateMachine false id).Run wd (c.1, .ofOption c.2)
      ((cmds.foldl (playTurn sc) c).1,
        .ofOption (cmds.foldl (playTurn sc) c).2) := by
  induction cmds generalizing c with
  | nil => exact .refl
  | cons cmd rest ih =>
      obtain ⟨hrun, hcovers⟩ := run_playTurn sc cmd hc
      exact hrun.trans (ih hcovers)

def sampleInstall : UpdateWorld :=
  freshInstall fun path =>
    if path = .executable then some "a".toUTF8.toList else none

def sampleUpdate (version : String) : Option UpdateCommand :=
  some (.selfUpdate "command-1" (some (releaseOf version)))

def sampleRollback : Option UpdateCommand :=
  some (.rollback "command-2" (some ⟨"withdrawn", true, ""⟩))

/-- The executable is no longer what it was when the command in progress was
taken up, in the middle of an attempt. -/
def disturbed (w : UpdateWorld) : Bool :=
  match w.since with
  | some d =>
    (match d.journal with
      | .found journal => decide journal.state.InFlight
      | _ => false) && w.disk.files .executable != d.files .executable
  | none => false

/-- The file the previous record names has another digest, or is not
there. -/
def misnamed (sha256 : Bytes → String) (w : UpdateWorld) : Bool :=
  match w.disk.previous with
  | .found value =>
    (value.path.bind w.disk.files).map sha256 != some value.sha256
  | _ => false

theorem not_oneAttempt_of_disturbed (h : disturbed w = true) :
    ¬ OneAttempt sha256 w := by
  intro hone
  simp only [disturbed] at h
  split at h
  · next d hsince =>
    split at h
    · next journal hjournal =>
      rw [Bool.and_eq_true, decide_eq_true_iff, bne_iff_ne] at h
      exact h.2 (hone.undisturbed d hsince ⟨journal, hjournal, h.1⟩).executable
    · cases h
  · cases h

theorem not_oneAttempt_of_misnamed (h : misnamed sha256 w = true) :
    ¬ OneAttempt sha256 w := by
  intro hone
  simp only [misnamed] at h
  split at h
  · next value hvalue =>
    obtain ⟨path, hpath, content, hfile, hdigest⟩ := hone.retained value hvalue
    simp [hpath, hfile, hdigest] at h
  · cases h

/-- Between an update to 1.2.0 and the restart into it, a rollback on request
puts 1.0.0 in its place. After a rollback to 1.0.0, the next update copies the
running build onto the file the record names, and fails half-way. -/
theorem attempts_overlap :
    (∃ c, (updateMachine false id).Run (updateWorld sampleDigest)
      (sampleInstall, .down) c ∧ disturbed c.1 = true ∧
        ¬ OneAttempt sampleDigest c.1) ∧
    ∃ c, (updateMachine false id).Run (updateWorld sampleDigest)
      (sampleInstall, .down) c ∧ misnamed sampleDigest c.1 = true ∧
        ¬ OneAttempt sampleDigest c.1 := by
  have hrun : ∀ cmds, (updateMachine false id).Run (updateWorld sampleDigest)
      (sampleInstall, .down) _ :=
    fun cmds => run_playTurns sampleScript cmds
      (c := (sampleInstall, none)) trivial
  have hdisturbed : disturbed ([none, sampleUpdate "1.1.0", none,
      sampleUpdate "1.2.0", sampleRollback].foldl (playTurn sampleScript)
        (sampleInstall, none)).1 = true := by
    decide +kernel
  have hmisnamed : misnamed sampleDigest ([none, sampleUpdate "1.1.0", none,
      sampleRollback, none, sampleUpdate "1.1.0"].foldl (playTurn sampleScript)
        (sampleInstall, none)).1 = true := by
    decide +kernel
  exact ⟨⟨_, hrun _, hdisturbed, not_oneAttempt_of_disturbed hdisturbed⟩,
    ⟨_, hrun _, hmisnamed, not_oneAttempt_of_misnamed hmisnamed⟩⟩

/-- Where no previous build is recorded every step is in turn. -/
theorem inTurn_of_absent {v : UpdateWorld} {o : UpdateOp}
    (h : w.disk.previous = .absent) : InTurn sha256 w o v := by
  have hno : ∀ value, w.disk.previous ≠ .found value := by simp [h]
  cases o with
  | takesUp opts cmd =>
      cases cmd with
      | selfUpdate commandID payload => trivial
      | rollback commandID payload =>
          cases payload with
          | none => trivial
          | some p =>
              rintro - ⟨-, value, path, hvalue, -⟩
              exact hno value hvalue
  | copyFile src dest => exact fun value hvalue => absurd hvalue (hno value)
  | _ => trivial

def unrecordedScript : Script (inTurnWorld sampleDigest) where
  answer := sampleAnswer false
  covers := fun w => w.disk.previous = .absent
  lawful := fun _ _ h => ⟨sampleAnswer_lawful, inTurn_of_absent h⟩
  closed := by
    intro w o h
    cases o with
    | copyFile src dest =>
        simp only [sampleAnswer]
        split <;> exact h
    | rename src dest =>
        simp only [sampleAnswer]
        split <;> exact h
    | _ => exact h

/-- An update, a restart into it that cannot record the previous build, and
another update while the first is still in flight. -/
theorem inTurn_oneAttempt_refused :
    OneAttempt sampleDigest ([none, sampleUpdate "1.1.0", none,
      sampleUpdate "1.2.0"].foldl (playTurn unrecordedScript)
        (sampleInstall, none)).1 :=
  inTurn_oneAttempt false id sampleDigest
    (run_playTurns unrecordedScript [none, sampleUpdate "1.1.0", none,
      sampleUpdate "1.2.0"] (c := (sampleInstall, none)) rfl)

end NodeLink.Proofs.UpdateAttempts
