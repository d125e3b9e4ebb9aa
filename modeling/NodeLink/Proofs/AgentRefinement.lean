import NodeLink.Proofs.AgentDiscipline

/-!
# The agent follows the journal protocol

Every world a run of the agent reaches is one a run of the journal protocol
reaches: being reached by the protocol is a discipline.
-/

namespace NodeLink.Proofs

open Lib Agent Protocol

variable {Key : Type} {ed25519Verify : Key → Bytes → Bytes → Bool}

/-- The protocol, started in `w₀`, reaches the world and the phase. -/
def reached (sg : Signer ed25519Verify) (w₀ : AgentWorld) :
    Discipline sg where
  holds := fun w ph => Protocol.Run sg (w₀, .down) (w, ph)
  allows := fun _ _ => True
  aside := fun _ => trivial
  halt := fun h => h.tail .halt
  tick := fun h hr => h.tail (.tick hr)
  load := fun h => h.tail .load
  undisturbed := fun h hint => h.tail (.undisturbed hint)
  saved := fun h he => ⟨trivial, h.tail (.saved he)⟩
  resumed := fun h he _ => h.tail (.unsaved he)
  recorded := fun h hr => ⟨trivial, h.tail (.recorded hr)⟩
  pruned := fun h => ⟨trivial, (h.tail .prune).tail (.saved .rewrite)⟩
  send := fun h hlook hresult => ⟨trivial, h.tail (.send hlook hresult)⟩
  answered := fun h hsent => h.tail (.answered hsent)
  beat := fun h => h.tail .beat
  receive := fun h => h.tail .receive
  start := fun h => h.tail .start
  finish := fun h => h.tail .finish

/-- The agent refines the journal protocol: whatever world it gets to, and
whenever it is idle with a journal in memory, so may the protocol. -/
theorem agentRun_refines {sg : Signer ed25519Verify} {w₀ w : AgentWorld}
    {p : Proc AgentOp (AgentOp.Ans Key) (Session Key)}
    (h : AgentRun sg (w₀, .down) (w, p)) :
    Protocol.Run sg (w₀, .down) (w, .down) ∧ ∀ sess, p = .idle sess →
      Protocol.Run sg (w₀, .down) (w, .quiet sess.seen) := by
  have hgood := disciplined_run (D := reached sg w₀)
    Relation.ReflTransGen.refl h
  refine ⟨hgood.crash idles_halt, ?_⟩
  rintro sess rfl
  exact hgood.1

end NodeLink.Proofs
