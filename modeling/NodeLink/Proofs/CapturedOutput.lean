import NodeLink.Agent.OutputCapture
import NodeLink.Lib.Utf8Repair
import NodeLink.Server.CommandTable

/-!
# Whether captured output is accepted

The agent counts what it keeps in the bytes the child wrote, the server counts
the text it is sent. A byte that is not UTF-8 grows from one to three on the way,
and a NUL goes through to a column that cannot hold it. So a result is accepted
exactly when what is kept has no NUL and few enough invalid bytes. The flags are
right in every case.
-/

namespace NodeLink.Proofs.CapturedOutput

open Lib Agent.OutputCapture

/-! ## What is kept of a stream -/

/-- A writer that was given all of a stream. -/
def Caught (w : LimitWriter) (s : Bytes) : Prop :=
  w.buf = s.take w.max ∧ w.total = s.length

theorem Caught.write {w : LimitWriter} {s : Bytes} (h : Caught w s) (p : Bytes) :
    Caught (w.write p) (s ++ p) := by
  obtain ⟨hbuf, htotal⟩ := h
  have hlen : w.buf.length = min w.max s.length := by rw [hbuf, List.length_take]
  refine ⟨?_, ?_⟩
  · show (if 0 < w.max - w.buf.length then w.buf ++ p.take (w.max - w.buf.length)
      else w.buf) = (s ++ p).take w.max
    rw [List.take_append]
    split
    · next hroom =>
        rw [show w.max - w.buf.length = w.max - s.length by omega, hbuf]
    · next hfull =>
        rw [show w.max - s.length = 0 by omega, List.take_zero, List.append_nil, hbuf]
  · show w.total + p.length = (s ++ p).length
    rw [htotal, List.length_append]

theorem Caught.writes {w : LimitWriter} {s : Bytes} (h : Caught w s)
    (chunks : List Bytes) :
    Caught (chunks.foldl LimitWriter.write w) (s ++ chunks.flatten) ∧
      (chunks.foldl LimitWriter.write w).max = w.max := by
  induction chunks generalizing w s with
  | nil =>
      rw [List.flatten_nil, List.append_nil]
      exact ⟨h, rfl⟩
  | cons p chunks ih =>
      rw [List.flatten_cons, ← List.append_assoc]
      exact ih (h.write p)

theorem caught_stream (chunks : List Bytes) :
    (chunks.foldl LimitWriter.write { max := maxStreamBytes }).buf =
        chunks.flatten.take maxStreamBytes ∧
      (chunks.foldl LimitWriter.write { max := maxStreamBytes }).total =
        chunks.flatten.length := by
  have hempty : Caught { max := maxStreamBytes } [] := ⟨List.take_nil.symm, rfl⟩
  obtain ⟨⟨hbuf, htotal⟩, hmax⟩ := hempty.writes chunks
  rw [hmax, List.nil_append] at hbuf
  exact ⟨hbuf, htotal⟩

theorem trimRunes_initial (n : Nat) (b : Bytes) : trimRunes n b <+: b := by
  induction n generalizing b with
  | zero => exact List.prefix_rfl
  | succ n ih =>
      unfold trimRunes
      split
      · exact List.prefix_rfl
      · split
        · exact List.prefix_rfl
        · split
          · exact List.prefix_rfl
          · split
            · exact List.dropLast_prefix b
            · exact (ih b.dropLast).trans ( List.dropLast_prefix b)

/-- Of the end, no more than a byte a turn is dropped. -/
theorem trimRunes_length (n : Nat) (b : Bytes) : b.length ≤ (trimRunes n b).length + n := by
  induction n generalizing b with
  | zero => exact Nat.le_refl _
  | succ n ih =>
      have hdrop : b.length ≤ b.dropLast.length + 1 := by
        rw [List.length_dropLast]
        omega
      unfold trimRunes
      split
      · omega
      · split
        · omega
        · split
          · omega
          · split
            · omega
            · have hrest := ih b.dropLast
              omega

/-- What is kept of standard error. -/
def keptErr (err : Bytes) : Bytes := trimIncompleteRune (err.take maxStreamBytes)

/-- What is kept of standard output, which gives way to standard error. -/
def keptOut (out err : Bytes) : Bytes :=
  trimIncompleteRune
    (out.take (min (maxCombinedBytes - min maxStreamBytes err.length) maxStreamBytes))

theorem keptErr_initial (err : Bytes) : keptErr err <+: err :=
  (trimRunes_initial 3 _).trans ( List.take_prefix _ _)

theorem keptOut_initial (out err : Bytes) : keptOut out err <+: out :=
  (trimRunes_initial 3 _).trans ( List.take_prefix _ _)

theorem prefix_ne_iff {s t : Bytes} (h : s <+: t) : s.length < t.length ↔ s ≠ t := by
  constructor
  · intro hlt heq
    rw [heq] at hlt
    exact Nat.lt_irrefl _ hlt
  · intro hne
    refine Nat.lt_of_le_of_ne h.length_le fun heq => hne (h.eq_of_length heq)

/-! ## The result -/

/-- What is put after standard error for the way the run ended. -/
def note (ctxErr : Option ContextError) (err : Option RunError) (kept : Bytes) :
    Bytes :=
  match ctxErr with
  | some .deadlineExceeded => timedOutMarker
  | some .canceled => cancelledMarker
  | none =>
    match err with
    | some (.other text) => if kept = [] then text else []
    | _ => []

section Result

variable {outWrites errWrites : List Bytes} {ctxErr : Option ContextError}
  {err : Option RunError}

/-- The streams and the flags of a result. -/
structure HasOutput (out err ending : Bytes) (r : Result) : Prop where
  stdout : r.stdout = keptOut out err
  stderr : r.stderr = keptErr err ++ ending
  stdoutTruncated : r.stdoutTruncated = true ↔ keptOut out err ≠ out
  stderrTruncated : r.stderrTruncated = true ↔ keptErr err ≠ err

theorem limited_spec (outWrites errWrites : List Bytes) :
    applyOutputLimits (outWrites.foldl LimitWriter.write { max := maxStreamBytes })
        (errWrites.foldl LimitWriter.write { max := maxStreamBytes }) =
      { outStr := keptOut outWrites.flatten errWrites.flatten
        errStr := keptErr errWrites.flatten
        outTrunc := decide ((keptOut outWrites.flatten errWrites.flatten).length <
          outWrites.flatten.length)
        errTrunc := decide ((keptErr errWrites.flatten).length <
          errWrites.flatten.length) } := by
  obtain ⟨hout, houtTotal⟩ := caught_stream outWrites
  obtain ⟨herr, herrTotal⟩ := caught_stream errWrites
  have hkept : trimIncompleteRune
      (if maxCombinedBytes < (outWrites.flatten.take maxStreamBytes).length +
          (errWrites.flatten.take maxStreamBytes).length then
        (outWrites.flatten.take maxStreamBytes).take
          (maxCombinedBytes - (errWrites.flatten.take maxStreamBytes).length)
      else outWrites.flatten.take maxStreamBytes) =
        keptOut outWrites.flatten errWrites.flatten := by
    rw [keptOut, ← List.take_take, ← List.length_take]
    split
    · rfl
    · next hle =>
        rw [List.take_of_length_le (i := maxCombinedBytes - _) (by omega)]
  simp only [applyOutputLimits, hout, houtTotal, herr, herrTotal, hkept]
  rfl

theorem runPreparedContext_output (outWrites errWrites : List Bytes)
    (ctxErr : Option ContextError) (err : Option RunError) :
    HasOutput outWrites.flatten errWrites.flatten
      (note ctxErr err (keptErr errWrites.flatten))
      (runPreparedContext outWrites errWrites ctxErr err) := by
  have hout := prefix_ne_iff (keptOut_initial outWrites.flatten errWrites.flatten)
  have herr := prefix_ne_iff (keptErr_initial errWrites.flatten)
  have hplain := (List.append_nil (keptErr errWrites.flatten)).symm
  simp only [runPreparedContext, limited_spec]
  match ctxErr, err with
  | some .deadlineExceeded, _ =>
    exact ⟨rfl, rfl, decide_eq_true_iff.trans hout, decide_eq_true_iff.trans herr⟩
  | some .canceled, _ =>
    exact ⟨rfl, rfl, decide_eq_true_iff.trans hout, decide_eq_true_iff.trans herr⟩
  | none, none =>
    exact ⟨rfl, hplain, decide_eq_true_iff.trans hout, decide_eq_true_iff.trans herr⟩
  | none, some (.exitError code) =>
    exact ⟨rfl, hplain, decide_eq_true_iff.trans hout, decide_eq_true_iff.trans herr⟩
  | none, some (.other text) =>
    refine ⟨rfl, ?_, decide_eq_true_iff.trans hout, decide_eq_true_iff.trans herr⟩
    show (if keptErr errWrites.flatten = [] then text
      else keptErr errWrites.flatten) = keptErr errWrites.flatten ++
        (if keptErr errWrites.flatten = [] then text else [])
    split
    · next hempty => rw [hempty, List.nil_append]
    · exact hplain

end Result

/-! ## What the server makes of it -/

/-- The size of a text that is read from bytes. -/
def textSize (bs : Bytes) : Nat := bs.length + 2 * replacedBytes bs

theorem byteLength_read (bs : Bytes) :
    Server.byteLength (String.ofList (decodeUtf8 bs)) = textSize bs := by
  rw [Server.byteLength, String.toList_ofList, utf8_decodeUtf8_length, textSize]

theorem textSize_note (ctxErr : Option ContextError) (err : Option RunError)
    (kept : Bytes) : textSize (kept ++ note ctxErr err kept) =
      textSize kept + textSize (note ctxErr err kept) := by
  have happend : ∀ c : UInt8, c.toNat < 0x80 → ∀ u, textSize (kept ++ c :: u) =
      textSize kept + textSize (c :: u) := by
    intro c hc u
    rw [textSize, textSize, textSize, replacedBytes_append hc, List.length_append]
    omega
  have hnil : textSize (kept ++ []) = textSize kept + textSize [] := by
    rw [List.append_nil]
    rfl
  match ctxErr, err with
  | some .deadlineExceeded, _ => exact happend 10 (by decide) _
  | some .canceled, _ => exact happend 10 (by decide) _
  | none, none => exact hnil
  | none, some (.exitError code) => exact hnil
  | none, some (.other text) =>
    show textSize (kept ++ if kept = [] then text else []) =
      textSize kept + textSize (if kept = [] then text else [])
    split
    · next hempty =>
        rw [hempty, List.nil_append]
        exact (Nat.zero_add _).symm
    · exact hnil

/-- The server takes the result, and its columns can hold the texts. -/
def Accepted (body : Server.ResultBody) : Prop :=
  body.valid = true ∧ Char.ofNat 0 ∉ body.stdout.toList ∧
    Char.ofNat 0 ∉ body.stderr.toList

/-- What is kept of the streams has no NUL, and its size as a text is within the
limits. -/
structure Fits (out err ending : Bytes) : Prop where
  noNulOut : 0 ∉ keptOut out err
  noNulErr : 0 ∉ keptErr err
  noNulEnding : 0 ∉ ending
  stdout : textSize (keptOut out err) ≤ Server.maxResultStreamBytes
  stderr : textSize (keptErr err) + textSize ending ≤ Server.maxResultStreamBytes
  combined : textSize (keptOut out err) + (textSize (keptErr err) + textSize ending) ≤
    Server.maxResultCombinedBytes

theorem valid_ofWire_iff (r : Result) (completedAt : Option Int) :
    (Server.ResultBody.ofWire (r.report completedAt)).valid = true ↔
      Server.byteLength (r.report completedAt).stdout ≤ Server.maxResultStreamBytes ∧
      Server.byteLength (r.report completedAt).stderr ≤ Server.maxResultStreamBytes ∧
      Server.byteLength (r.report completedAt).stdout +
        Server.byteLength (r.report completedAt).stderr ≤
          Server.maxResultCombinedBytes := by
  have htotal : ∀ n : Nat, (if (n : Int) = 0 then none else some (n : Int)).all
      (fun t => decide (0 ≤ t)) = true := by
    intro n
    split
    · rfl
    · exact decide_eq_true (Int.natCast_nonneg n)
  have hout := htotal r.stdoutTotalBytes
  have herr := htotal r.stderrTotalBytes
  unfold Server.ResultBody.valid
  rw [Bool.and_eq_true, Bool.and_eq_true, Bool.and_eq_true, Bool.and_eq_true,
    decide_eq_true_iff, decide_eq_true_iff, decide_eq_true_iff]
  exact ⟨fun ⟨⟨⟨⟨h1, h2⟩, h3⟩, _⟩, _⟩ => ⟨h1, h2, h3⟩,
    fun ⟨h1, h2, h3⟩ => ⟨⟨⟨⟨h1, h2⟩, h3⟩, hout⟩, herr⟩⟩

/-- The server accepts a result, whose flags say what was dropped, exactly when
what is kept of the streams fits. -/
theorem captured_output_accepted_iff (outWrites errWrites : List Bytes)
    (ctxErr : Option ContextError) (err : Option RunError) (completedAt : Option Int) :
    HasOutput outWrites.flatten errWrites.flatten
        (note ctxErr err (keptErr errWrites.flatten))
        (runPreparedContext outWrites errWrites ctxErr err) ∧
      Accepted (.ofWire
        ((runPreparedContext outWrites errWrites ctxErr err).report completedAt)) ↔
      Fits outWrites.flatten errWrites.flatten
        (note ctxErr err (keptErr errWrites.flatten)) := by
  have houtput := runPreparedContext_output outWrites errWrites ctxErr err
  rw [and_iff_right houtput]
  generalize runPreparedContext outWrites errWrites ctxErr err = r at houtput ⊢
  have hout : Server.byteLength (r.report completedAt).stdout =
      textSize (keptOut outWrites.flatten errWrites.flatten) := by
    rw [← houtput.stdout]
    exact byteLength_read _
  have herr : Server.byteLength (r.report completedAt).stderr =
      textSize (keptErr errWrites.flatten) +
        textSize (note ctxErr err (keptErr errWrites.flatten)) := by
    rw [← textSize_note, ← houtput.stderr]
    exact byteLength_read _
  have hnulOut : Char.ofNat 0 ∈ (r.report completedAt).stdout.toList ↔
      0 ∈ keptOut outWrites.flatten errWrites.flatten := by
    rw [← houtput.stdout, ← nul_mem_decodeUtf8, Result.report, String.toList_ofList]
  have hnulErr : Char.ofNat 0 ∈ (r.report completedAt).stderr.toList ↔
      0 ∈ keptErr errWrites.flatten ∨
        0 ∈ note ctxErr err (keptErr errWrites.flatten) := by
    rw [← List.mem_append, ← houtput.stderr, ← nul_mem_decodeUtf8, Result.report,
      String.toList_ofList]
  have hvalid := valid_ofWire_iff r completedAt
  rw [hout, herr] at hvalid
  constructor
  · rintro ⟨hlimits, hstdout, hstderr⟩
    obtain ⟨h1, h2, h3⟩ := hvalid.mp hlimits
    exact ⟨fun h => hstdout (hnulOut.mpr h), fun h => hstderr (hnulErr.mpr (Or.inl h)),
      fun h => hstderr (hnulErr.mpr (Or.inr h)), h1, h2, h3⟩
  · intro hfits
    refine ⟨hvalid.mpr ⟨hfits.stdout, hfits.stderr, hfits.combined⟩,
      fun h => hfits.noNulOut (hnulOut.mp h), fun h => ?_⟩
    rcases hnulErr.mp h with hkept | hnote
    · exact hfits.noNulErr hkept
    · exact hfits.noNulEnding hnote

theorem replacedBytes_replicate (n : Nat) :
    replacedBytes (List.replicate n 0xFF) = n := by
  induction n with
  | zero => rfl
  | succ n ih =>
      have hrune : ∀ t, decodeRune (0xFF :: t) = (replacementChar, 1) := fun _ => rfl
      rw [List.replicate_succ, replacedBytes_cons, hrune, List.drop_succ_cons,
        List.drop_zero, ih, isReplaced, decide_eq_true rfl, if_pos rfl, Nat.add_comm]

/-- Where none of it is text, a third of what the server takes of a stream is too
much. -/
theorem invalid_not_accepted {n : Nat} (h : 87471 ≤ n) (completedAt : Option Int) :
    ¬ Accepted (.ofWire
      ((runPreparedContext [List.replicate n 0xFF] [] none none).report
        completedAt)) := by
  intro haccepted
  have houtput := runPreparedContext_output [List.replicate n 0xFF] [] none none
  have hlimit := ((valid_ofWire_iff _ completedAt).mp haccepted.1).1
  have hsize : Server.byteLength
      ((runPreparedContext [List.replicate n 0xFF] [] none none).report
        completedAt).stdout = textSize (keptOut (List.replicate n 0xFF) []) := by
    have hstdout := houtput.stdout
    rw [List.flatten_singleton, List.flatten_nil] at hstdout
    rw [← hstdout]
    exact byteLength_read _
  have hkept : (keptOut (List.replicate n 0xFF) []).length + 3 ≥ 87471 := by
    have hlength := trimRunes_length 3 ((List.replicate n (0xFF : UInt8)).take
      (min (maxCombinedBytes - min maxStreamBytes ([] : Bytes).length) maxStreamBytes))
    rw [List.length_take, List.length_replicate] at hlength
    have hroom : 87471 ≤ min (maxCombinedBytes -
        min maxStreamBytes ([] : Bytes).length) maxStreamBytes := by decide
    exact Nat.le_trans (Nat.le_min.mpr ⟨hroom, h⟩) hlength
  have hall := (List.prefix_replicate_iff.mp
    (keptOut_initial (List.replicate n (0xFF : UInt8)) [])).2
  have hmax : Server.maxResultStreamBytes = 262400 := rfl
  rw [hsize, hmax, hall, textSize, replacedBytes_replicate, List.length_replicate]
    at hlimit
  omega

/-- A NUL that the child wrote is in what is to be stored; and bytes that are not
text take three times their size. -/
theorem captured_output_not_accepted :
    ¬ Accepted (.ofWire ((runPreparedContext [[0]] [] none none).report none)) ∧
      ¬ Accepted (.ofWire
        ((runPreparedContext [List.replicate 90000 0xFF] [] none none).report none)) :=
  ⟨fun h => h.2.1 (by decide), invalid_not_accepted (by omega) none⟩

end NodeLink.Proofs.CapturedOutput
