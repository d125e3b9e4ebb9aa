import NodeLink.Lib.JsonText
import NodeLink.Lib.Utf8

/-!
# The relay of interactive shell frames

`server/app/core/shell_relay.py`: one direction of a shell session is a queue
bounded in bytes and frames. A push is accepted in sequence or refused, an
acknowledgement evicts, a read is served from the cursor the reader names. The
digests of recent frames tell a retry from another frame under its number.
-/

namespace NodeLink.Server

open Lib

/-- The refusals of the relay; `code` is what the client is told. -/
inductive RelayError where
  | sequenceConflict | backpressure | cursorExpired | relayClosed
deriving DecidableEq, Repr

def RelayError.code : RelayError → String
  | .sequenceConflict => "shell_sequence_conflict"
  | .backpressure => "shell_backpressure"
  | .cursorExpired => "shell_cursor_expired"
  | .relayClosed => "shell_relay_closed"

structure RelayFrame where
  seq : Int
  stream : String
  dataB64 : String
  eof : Bool
  byteLength : Nat
deriving DecidableEq, Repr

/-- `RelayFrame.digest`: the fields but the length, which follows from the data. -/
def RelayFrame.digest (sha256 : Bytes → Bytes) (frame : RelayFrame) : Bytes :=
  let zero := [Char.ofNat 0]
  sha256 (utf8 (intDigits frame.seq ++ zero ++ frame.stream.toList ++ zero ++
    frame.dataB64.toList ++ zero ++ if frame.eof then ['1'] else ['0']))

/-- `_Direction` -/
structure Direction where
  lastSeq : Int
  sentHighWater : Int
  evictedThrough : Int
  maxBytes : Nat
  maxFrames : Nat
  frames : List RelayFrame
  bufferedBytes : Int
  recentDigests : List (Int × Bytes)
deriving DecidableEq, Repr

/-- `_Direction.__init__` -/
def Direction.new (startSeq : Int) (maxBytes maxFrames : Nat) : Direction where
  lastSeq := startSeq
  sentHighWater := startSeq
  evictedThrough := startSeq
  maxBytes
  maxFrames
  frames := []
  bufferedBytes := 0
  recentDigests := []

/-- `_Direction.append`: the direction after the push, and whether the frame
is new. -/
def Direction.append (sha256 : Bytes → Bytes) (frame : RelayFrame)
    (d : Direction) : Except RelayError (Direction × Bool) :=
  if frame.seq ≤ d.lastSeq then
    if d.recentDigests.lookup frame.seq = some (frame.digest sha256) then
      .ok (d, false)
    else .error .sequenceConflict
  else if frame.seq ≠ d.lastSeq + 1 then .error .sequenceConflict
  else if d.maxFrames ≤ d.frames.length ∨
      d.maxBytes < d.bufferedBytes + frame.byteLength then
    .error .backpressure
  else
    .ok ({ d with
      frames := d.frames ++ [frame]
      bufferedBytes := d.bufferedBytes + frame.byteLength
      lastSeq := frame.seq
      recentDigests := (frame.seq, frame.digest sha256) ::
        d.recentDigests.filter fun entry => entry.1 ≠ frame.seq }, true)

/-- The loop of `_Direction.acknowledge` over the queue, the buffered bytes and
the eviction mark. -/
def evict (ack : Int) :
    List RelayFrame → Int → Int → List RelayFrame × Int × Int
  | [], bytes, through => ([], bytes, through)
  | removed :: rest, bytes, through =>
    if removed.seq ≤ ack then
      evict ack rest (bytes - removed.byteLength) removed.seq
    else (removed :: rest, bytes, through)

/-- `_Direction.acknowledge` -/
def Direction.acknowledge (ack : Int) (d : Direction) :
    Except RelayError Direction :=
  if ack < 0 ∨ d.sentHighWater < ack then .error .sequenceConflict
  else
    .ok { d with
      frames := (evict ack d.frames d.bufferedBytes d.evictedThrough).1
      bufferedBytes := (evict ack d.frames d.bufferedBytes d.evictedThrough).2.1
      evictedThrough :=
        (evict ack d.frames d.bufferedBytes d.evictedThrough).2.2
      recentDigests :=
        d.recentDigests.filter fun entry => ¬ entry.1 < max 0 (ack - 32) }

/-- The batch `_Direction.after` answers with. -/
def Direction.batch (cursor : Int) (limit : Nat) (d : Direction) :
    List RelayFrame :=
  (d.frames.filter fun frame => cursor < frame.seq).take limit

/-- `_Direction.after`: the frames past the cursor, and the direction that has
sent them. -/
def Direction.after (cursor : Int) (limit : Nat) (d : Direction) :
    Except RelayError (List RelayFrame × Direction) :=
  if cursor < 0 ∨ d.lastSeq < cursor then .error .sequenceConflict
  else if cursor < d.evictedThrough then .error .cursorExpired
  else
    match (d.batch cursor limit).getLast? with
    | none => .ok (d.batch cursor limit, d)
    | some last => .ok (d.batch cursor limit,
        { d with sentHighWater := max d.sentHighWater last.seq })

/-- One look of `SessionRelay.read` at its direction. The first look
acknowledges; the one after the wait reads alone. What an acknowledgement did
stays when the read behind it is refused. -/
def Direction.look (ack : Option Int) (cursor : Int) (limit : Nat)
    (d : Direction) : Direction × Except RelayError (List RelayFrame) :=
  match ack.elim (.ok d) d.acknowledge with
  | .error e => (d, .error e)
  | .ok d =>
    match d.after cursor limit with
    | .error e => (d, .error e)
    | .ok (result, d) => (d, .ok result)

/-- A direction of a `SessionRelay`, with the flag both share. -/
structure SessionRelay where
  direction : Direction
  closed : Bool
deriving DecidableEq, Repr

/-- `SessionRelay.append` -/
def SessionRelay.append (sha256 : Bytes → Bytes) (frame : RelayFrame)
    (relay : SessionRelay) : Except RelayError (SessionRelay × Bool) :=
  if relay.closed then .error .relayClosed
  else
    match relay.direction.append sha256 frame with
    | .error e => .error e
    | .ok (d, accepted) => .ok ({ relay with direction := d }, accepted)

end NodeLink.Server
