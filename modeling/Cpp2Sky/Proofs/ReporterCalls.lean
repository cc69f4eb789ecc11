import Cpp2Sky.Proofs.ReporterProgress

/-! A call of `sendMessage` waits for nobody. Whatever the other threads do
between its steps, and however many streams fail, it returns after seven steps
of its own at most. -/

namespace Cpp2Sky.AsyncClient
open Runs

variable {M : Type} {before after moved start state : State M} {action : Action M} {actions : List (Action M)}

def Once.turns : Once M → Nat
  | .exchange => 4
  | .assertStream => 3
  | .popFront => 2
  | .markIdle | .write _ => 1

def Sender.turns : Sender M → Nat
  | .outside => 0
  | .total _ => 7
  | .size _ => 6
  | .push _ => 5
  | .overflow _ => 1
  | .once position => position.turns

/-- The steps that a thread has still to take in its call, at most. -/
def State.turns (state : State M) (thread : Nat) : Nat :=
  if state.fault.isSome then 0 else state.senders[thread]?.elim 0 Sender.turns

def Action.calls (thread : Nat) : Action M → Bool
  | .call other _ => other == thread
  | .spawn | .sender _ | .deliver _ _ | .drain | .loop | .reset | .resetter => false

end Cpp2Sky.AsyncClient
