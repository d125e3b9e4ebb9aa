import NodeLink.Lib.Base64
import NodeLink.Server.ShellRelay

/-!
# The agent's end of the shell input

`pollShellInput` of `agent/internal/service/shell_session.go`: the agent polls
from the last frame it took, checks that a batch goes on from there, and acks
what it has handed to the process. A control frame or an end of file ends the
loop, as a frame out of sequence and one that does not decode do.
-/

namespace NodeLink.Agent

open Lib
open Server (RelayFrame)

/-- Why the loop over the input stopped. -/
inductive InputEnd where
  | control | sequenceMismatch | undecodable
  | refused (e : Server.RelayError)
deriving DecidableEq, Repr

/-- The state of `pollShellInput`: the two counters it polls with, and what
went to the process. -/
structure InputPoll where
  after : Int := 0
  ack : Int := 0
  input : List Bytes := []
  ended : Option InputEnd := none
deriving DecidableEq, Repr

/-- The body of the loop over a batch. -/
def InputPoll.takeFrame (s : InputPoll) (frame : RelayFrame) : InputPoll :=
  if frame.seq ≠ s.after + 1 then { s with ended := some .sequenceMismatch }
  else
    match decodeBase64 frame.dataB64 with
    | none => { s with after := frame.seq, ended := some .undecodable }
    | some decoded =>
      if frame.stream = "control" ∨ frame.eof then
        { s with after := frame.seq, ended := some .control }
      else
        { s with
          after := frame.seq
          ack := frame.seq
          input := s.input ++ [decoded] }

/-- The loop over a batch, left at the first `return`. -/
def InputPoll.takeFrames (s : InputPoll) : List RelayFrame → InputPoll
  | [] => s
  | frame :: rest =>
    if (s.takeFrame frame).ended.isSome then s.takeFrame frame
    else (s.takeFrame frame).takeFrames rest

/-- What a poll that was answered does to the loop. A refusal of the relay is
not retried; a lost answer changes nothing and is no case here. -/
def InputPoll.answered (s : InputPoll) :
    Except Server.RelayError (List RelayFrame) → InputPoll
  | .error e => { s with ended := some (.refused e) }
  | .ok batch => s.takeFrames batch

end NodeLink.Agent
