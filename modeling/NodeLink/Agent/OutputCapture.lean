import NodeLink.Agent.SeenStore

/-!
# Captured output

`agent/internal/executor`: the writers of `limits.go` that a child's output is
copied to, what is kept of it, and the result that `runPreparedContext` makes of
it.
-/

namespace NodeLink.Agent.OutputCapture

open Lib

/-- `MaxStreamBytes` -/
def maxStreamBytes : Nat := 256 * 1024

/-- `MaxCombinedBytes` -/
def maxCombinedBytes : Nat := 384 * 1024

/-- `limitWriter` -/
structure LimitWriter where
  max : Nat
  buf : Bytes := []
  total : Nat := 0
  deriving DecidableEq, Repr

/-- `limitWriter.Write` -/
def LimitWriter.write (w : LimitWriter) (p : Bytes) : LimitWriter :=
  { w with
    total := w.total + p.length
    buf :=
      if 0 < w.max - w.buf.length then w.buf ++ p.take (w.max - w.buf.length)
      else w.buf }

/-- `utf8.RuneStart` -/
def runeStart (b : UInt8) : Bool := decide (b.toNat / 64 ≠ 2)

/-- `utf8.DecodeLastRune` -/
def decodeLastRune (p : Bytes) : Char × Nat :=
  match p.getLast? with
  | none => (replacementChar, 0)
  | some last =>
    if last.toNat < 0x80 then (Char.ofNat last.toNat, 1)
    else
      -- the nearest byte that may start it, no more than four from the end
      let back := [2, 3, 4].find? fun k =>
        decide (k ≤ p.length) && (p[p.length - k]?).any runeStart
      let start := match back with
        | some k => p.length - k
        | none => p.length - 5
      let (r, size) := decodeRune (p.drop start)
      if start + size ≠ p.length then (replacementChar, 1) else (r, size)

/-- The loop of `trimIncompleteRune`, with the turns it has left. -/
def trimRunes : Nat → Bytes → Bytes
  | 0, b => b
  | n + 1, b =>
    match b.getLast? with
    | none => b
    | some last =>
      if decodeLastRune b ≠ (replacementChar, 1) then b
      else if last.toNat < 0x80 then b
      else if 0xC0 ≤ last.toNat then b.dropLast
      else trimRunes n b.dropLast

/-- `trimIncompleteRune` -/
def trimIncompleteRune (b : Bytes) : Bytes := trimRunes 3 b

structure Limited where
  outStr : Bytes
  errStr : Bytes
  outTrunc : Bool
  errTrunc : Bool

/-- `applyOutputLimits` -/
def applyOutputLimits (stdout stderr : LimitWriter) : Limited :=
  let outBytes :=
    if maxCombinedBytes < stdout.buf.length + stderr.buf.length then
      stdout.buf.take (maxCombinedBytes - stderr.buf.length)
    else stdout.buf
  let outBytes := trimIncompleteRune outBytes
  let errBytes := trimIncompleteRune stderr.buf
  { outStr := outBytes
    errStr := errBytes
    outTrunc := decide (outBytes.length < stdout.total)
    errTrunc := decide (errBytes.length < stderr.total) }

/-- `executor.Result` -/
structure Result where
  exitCode : Int
  stdout : Bytes := []
  stderr : Bytes := []
  stdoutTruncated : Bool := false
  stderrTruncated : Bool := false
  stdoutTotalBytes : Nat := 0
  stderrTotalBytes : Nat := 0
  deriving DecidableEq, Repr

/-- What `ctx.Err()` says after the run. -/
inductive ContextError where
  | deadlineExceeded
  | canceled
  deriving DecidableEq, Repr

/-- What `runCommand` returns. -/
inductive RunError where
  | exitError (exitCode : Int)
  | other (text : Bytes)
  deriving DecidableEq, Repr

def timedOutMarker : Bytes := utf8 "\n[command timed out]".toList

def cancelledMarker : Bytes := utf8 "\n[command cancelled]".toList

/-- `runPreparedContext` from where the child runs: the chunks that are copied
from its two streams, and how the run ends. -/
def runPreparedContext (outWrites errWrites : List Bytes)
    (ctxErr : Option ContextError) (err : Option RunError) : Result :=
  let stdout := outWrites.foldl LimitWriter.write { max := maxStreamBytes }
  let stderr := errWrites.foldl LimitWriter.write { max := maxStreamBytes }
  let limited := applyOutputLimits stdout stderr
  let res : Result :=
    { exitCode := 0
      stdout := limited.outStr
      stderr := limited.errStr
      stdoutTruncated := limited.outTrunc
      stderrTruncated := limited.errTrunc
      stdoutTotalBytes := stdout.total
      stderrTotalBytes := stderr.total }
  match ctxErr with
  | some .deadlineExceeded =>
    { res with exitCode := -1, stderr := res.stderr ++ timedOutMarker }
  | some .canceled =>
    { res with exitCode := -1, stderr := res.stderr ++ cancelledMarker }
  | none =>
    match err with
    | some (.exitError exitCode) => { res with exitCode }
    | some (.other text) =>
      { res with
        exitCode := -1
        stderr := if res.stderr = [] then text else res.stderr }
    | none => res

/-- The result as it is reported. A string of Go is bytes; where they are not
UTF-8, `encoding/json` puts U+FFFD for each. -/
def Result.report (r : Result) (agentCompletedAt : Option Int) :
    Agent.CommandResult where
  exitCode := r.exitCode
  stdout := String.ofList (decodeUtf8 r.stdout)
  stderr := String.ofList (decodeUtf8 r.stderr)
  agentCompletedAt
  stdoutTruncated := r.stdoutTruncated
  stderrTruncated := r.stderrTruncated
  stdoutTotalBytes := r.stdoutTotalBytes
  stderrTotalBytes := r.stderrTotalBytes

end NodeLink.Agent.OutputCapture
