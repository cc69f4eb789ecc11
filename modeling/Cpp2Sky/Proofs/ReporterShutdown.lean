import Cpp2Sky.Proofs.ReporterQueue

/-! One call of `resetClient` against the event loop. A callback reads
`client_reset_` once. If it read false and is then overtaken by the whole call
up to `cq_.Shutdown`, it starts a stream or a Write on a queue that is shut down. -/

namespace Cpp2Sky.AsyncClient
open Runs

variable {M : Type}

/-- Past the read of `client_reset_` and, on the success path, past the pop:
the next operation of the thread is a StartCall or a Write. -/
def Loop.committed : Loop M → Bool
  | .assertBusy | .startStream | .once (.write _) => true
  | _ => false

/-- The steps of the call of `resetClient` and of the event loop thread. -/
def Action.resets : Action M → Prop
  | .deliver _ _ | .drain | .loop | .resetter => True
  | .spawn | .call _ _ | .sender _ | .reset => False

def ShutsDownClear (state : State M) : Action M → Prop
  | .resetter => state.resetter = .shutdown → state.loop.committed = false
  | _ => True

instance (state : State M) : (action : Action M) → Decidable (ShutsDownClear state action)
  | .resetter => inferInstanceAs (Decidable (_ → _))
  | .spawn | .call _ _ | .sender _ | .deliver _ _ | .drain | .loop | .reset => .isTrue True.intro

/-- During the call the buffer stays empty once it was cleared, and after the
shutdown no callback comes to a StartCall or a Write. -/
structure Closing (state : State M) : Prop where
  cleared : state.resetter = .exit ∨ state.resetter = .shutdown → state.messageBuffer = []
  emptied : state.queueShutdown = true → state.messageBuffer = []
  uncommitted : state.queueShutdown = true → state.loop.committed = false
  spared : state.fault ≠ some .workAfterShutdown

/-- The call was overtaken: a committed callback has no way but into its operation. -/
def Overrun (state : State M) : Prop :=
  state.fault = some .workAfterShutdown ∨
    state.queueShutdown = true ∧ state.resetter = .join ∧ state.loop.committed = true ∧ state.fault = none

private theorem callback_committed (operation : Operation M) (ok : Bool) :
    (operation.callback ok).committed = false := by
  cases operation <;> rfl

private theorem Closing.once {before moved : State M} {position following} (kept : Closing before)
    (turn : before.loop = .once position)
    (once : OnceStep before position moved following) : Closing { moved with loop := .after following } := by
  have committed : before.queueShutdown = true → (Loop.once position).committed = false :=
    fun dead => turn ▸ kept.uncommitted dead
  cases once with
  | claim | busy | present | empty | markIdle => exact ⟨kept.cleared, kept.emptied, fun _ => rfl, kept.spared⟩
  | absent => exact ⟨kept.cleared, kept.emptied, fun _ => rfl, by simp [State.fail]⟩
  | null => exact ⟨kept.cleared, kept.emptied, committed, by simp [State.fail]⟩
  | write active live => exact ⟨kept.cleared, kept.emptied, fun _ => rfl, kept.spared⟩
  | late active dead => cases committed dead
  | pop buffer =>
    -- Nothing is left to pop once the buffer was cleared.
    have waiting : before.messageBuffer ≠ [] := by simp [buffer]
    exact ⟨fun turn => absurd (kept.cleared turn) waiting, fun dead => absurd (kept.emptied dead) waiting,
      fun dead => absurd (kept.emptied dead) waiting, kept.spared⟩

private theorem Step.closing {before after : State M} {action} (moves : Step before action after)
    (kept : Closing before) (lifecycle : Lifecycle before)
    (resets : action.resets) (clear : ShutsDownClear before action) : Closing after := by
  have uncommitted (same : Loop M) (turn : before.loop = same) (dead : before.queueShutdown = true) :
      same.committed = false := turn ▸ kept.uncommitted dead
  cases moves with
  | deliver waiting found =>
    exact ⟨kept.cleared, kept.emptied, fun _ => callback_committed _ _, kept.spared⟩
  | drain | sent | lost | checkReset | checkOk | loopIdle =>
    exact ⟨kept.cleared, kept.emptied, fun _ => rfl, kept.spared⟩
  | checkFailed turn unset =>
    exact ⟨kept.cleared, kept.emptied, fun dead => absurd dead (lifecycle.not_shut unset), kept.spared⟩
  | loopOnce turn once => exact kept.once turn once
  | notBusy turn idle => exact ⟨kept.cleared, kept.emptied, kept.uncommitted, by simp⟩
  | isBusy turn idle => exact ⟨kept.cleared, kept.emptied, fun dead => (by cases uncommitted _ turn dead), kept.spared⟩
  | restart turn live => exact ⟨kept.cleared, kept.emptied, fun _ => rfl, kept.spared⟩
  | lateStart turn dead old => cases uncommitted _ turn dead
  | store | exitAgain | join | resetStream =>
    exact ⟨by simp, kept.emptied, kept.uncommitted, kept.spared⟩
  | clear => exact ⟨fun _ => rfl, fun _ => rfl, kept.uncommitted, kept.spared⟩
  | exit turn exited => exact ⟨fun _ => kept.cleared (.inl turn), kept.emptied, kept.uncommitted, kept.spared⟩
  | shutdown turn =>
    exact ⟨by simp, fun _ => kept.cleared (.inr turn), fun _ => clear turn, kept.spared⟩
  | _ => exact resets.elim

/-- From the overrun on the callback goes straight to its StartCall or Write. -/
private theorem Step.overrun {before after : State M} {action} (moves : Step before action after)
    (lost : Overrun before) (sound : Sound before) (healthy : before.fault = none)
    (resets : action.resets) : Overrun after := by
  rcases lost with faulted | ⟨dead, joining, committed, _⟩
  · rw [healthy] at faulted
    cases faulted
  · have running : before.loop ≠ .finished := by
      intro finished
      rw [finished] at committed
      cases committed
    cases moves with
    | deliver waiting | drain waiting => rw [waiting] at committed; cases committed
    | sent turn | lost turn | checkReset turn | checkOk turn | checkFailed turn | loopIdle turn =>
      rw [turn] at committed; cases committed
    | loopOnce turn once =>
      rw [turn] at committed
      cases once with
      | late active dead => exact .inl rfl
      | write active live => rw [dead] at live; cases live
      | null active => exact absurd ((sound.lifecycle healthy).stream active) running
      | _ => cases committed
    | notBusy turn idle => exact absurd rfl ((Step.notBusy turn idle).busy sound healthy)
    | isBusy turn idle => exact .inr ⟨dead, joining, rfl, healthy⟩
    | restart turn live => rw [dead] at live; cases live
    | lateStart turn dead old => exact .inl rfl
    | join turn finished => exact absurd finished running
    | store turn | clear turn | exitAgain turn | exit turn | shutdown turn | resetStream turn =>
      rw [joining] at turn; cases turn
    | _ => exact resets.elim

private theorem Step.overtaken {before after : State M} {action} (moves : Step before action after)
    (healthy : before.fault = none) (overtaken : ¬ ShutsDownClear before action) : Overrun after := by
  cases moves with
  | shutdown turn =>
    obtain ⟨_, committed⟩ := Classical.not_imp.mp overtaken
    exact .inr ⟨rfl, rfl, by simpa using committed, healthy⟩
  | store turn | clear turn | exitAgain turn | exit turn | join turn | resetStream turn =>
    refine absurd (fun shutdown => ?_) overtaken
    rw [turn] at shutdown
    cases shutdown
  | _ => exact absurd True.intro overtaken

/-- A run of one call of `resetClient` that meets the condition starts no work
after the shutdown. One that does not, and ends, started some. -/
theorem shutdown_ends_work {start state : State M} {actions : List (Action M)} (reached : Reaches start)
    (before : start.BeforeReset) (executed : exec step start (.reset :: actions) = some state)
    (resets : ∀ action ∈ actions, action.resets) :
    (Along step ShutsDownClear start (.reset :: actions) → state.fault ≠ some .workAfterShutdown) ∧
    (state.resetter = .outside ∨ state.fault ≠ none → state.fault ≠ some .workAfterShutdown →
      Along step ShutsDownClear start (.reset :: actions)) := by
  obtain ⟨called, moved, remaining⟩ := exec_cons_some executed
  rw [Along.cons_some moved]
  have closing : Closing called := by
    obtain ⟨healthy, moves⟩ := step_cases moved
    have live := (reached.sound.lifecycle healthy).live before.unset
    cases moves
    exact ⟨by simp, by simp [live], by simp [live], by simp [healthy]⟩
  have kept : ∀ (before : State M) action after, Reaches before ∧ Closing before → Action.resets action →
      ShutsDownClear before action → step before action = some after → Reaches after ∧ Closing after := by
    intro before action after kept resets clear executed
    obtain ⟨healthy, moves⟩ := step_cases executed
    exact ⟨kept.1.next executed, moves.closing kept.2 (kept.1.sound.lifecycle healthy) resets clear⟩
  have breach : ∀ (before : State M) action after, Reaches before ∧ Closing before → Action.resets action →
      ¬ ShutsDownClear before action → step before action = some after → Reaches after ∧ Overrun after := by
    intro before action after kept _ overtaken executed
    obtain ⟨healthy, moves⟩ := step_cases executed
    exact ⟨kept.1.next executed, moves.overtaken healthy overtaken⟩
  have stays : ∀ (before : State M) action after, Reaches before ∧ Overrun before → Action.resets action →
      step before action = some after → Reaches after ∧ Overrun after := by
    intro before action after kept resets executed
    obtain ⟨healthy, moves⟩ := step_cases executed
    exact ⟨kept.1.next executed, moves.overrun kept.2 kept.1.sound healthy resets⟩
  rcases kept_or_doomed kept breach stays ⟨reached.next moved, closing⟩ (Along.of_actions _ resets) remaining
    with ⟨along, _, held⟩ | ⟨broken, _, lost⟩
  · exact ⟨fun _ => held.spared, fun _ _ => ⟨True.intro, along⟩⟩
  · refine ⟨fun clear => absurd clear.2 broken, fun ended spared => ?_⟩
    rcases lost with faulted | ⟨_, joining, _, healthy⟩
    · exact absurd faulted spared
    · rw [joining, healthy] at ended
      simp at ended

def orderlyRun : List (Action Nat) :=
  [.resetter, .resetter, .resetter, .resetter, .deliver 0 false, .loop, .loop, .drain, .resetter, .resetter]

theorem shutdown_ends_work_orderly :
    ∃ start state : State Nat, exec step constructed reconnectRun = some start ∧
      exec step start (.reset :: orderlyRun) = some state ∧ state.resetter = .outside ∧
      state.fault ≠ some .workAfterShutdown :=
  ⟨_, _, rfl, rfl, rfl, (shutdown_ends_work ⟨reconnectRun, rfl⟩ ⟨rfl, rfl⟩
    (show exec step _ (.reset :: orderlyRun) = some _ from rfl) (by simp [orderlyRun, Action.resets])).1 (by decide)⟩

/-- The first stream fails, and `resetClient` runs up to the join between the
callback's read of `client_reset_` and its StartCall. -/
def overtakenRun : List (Action Nat) :=
  [.resetter, .resetter, .resetter, .resetter, .loop, .loop]

theorem stream_started_after_shutdown :
    ∃ start state : State Nat, exec step constructed [.deliver 0 false, .loop] = some start ∧ start.BeforeReset ∧
      (∀ sender ∈ start.senders, sender = .outside) ∧ exec step start (.reset :: overtakenRun) = some state ∧
      state.fault = some .workAfterShutdown :=
  ⟨_, _, rfl, ⟨rfl, rfl⟩, by decide, rfl, rfl⟩

end Cpp2Sky.AsyncClient
