import Cpp2Sky.Proofs.ReporterQueue

/-! Between the pop that finds the buffer empty and the mark that follows it, a
sender can push a message and fail to claim the flag. The mark then leaves the
message with nothing scheduled to send it. No other step does. -/

namespace Cpp2Sky.AsyncClient
open Runs

variable {M : Type}

def Once.tries : Once M → Nat
  | .exchange => 1
  | .assertStream | .popFront | .markIdle | .write _ => 0

/-- A thread that has its exchange ahead, also one that has still to push. -/
def Sender.tries : Sender M → Nat
  | .push _ => 1
  | .once position => position.tries
  | .outside | .total _ | .size _ | .overflow _ => 0

def Loop.tries : Loop M → Nat
  | .once position => position.tries
  | .next | .count _ _ | .check _ | .markIdle | .assertBusy | .startStream | .finished => 0

def State.triers (state : State M) : Nat := Pool.total Sender.tries state.senders + state.loop.tries

/-- A waiting message has the flag down, and then its holder or an operation will
come back to the buffer, or it has a thread about to try the flag. -/
def State.Watched (state : State M) : Prop :=
  state.messageBuffer ≠ [] → state.eventLoopIdle = false ∨ 0 < state.triers

def GivesBack (state : State M) : Action M → Prop
  | .sender thread => state.senders[thread]? = some (.once .markIdle)
  | .loop => state.loop = .once .markIdle
  | _ => False

/-- A thread that found the buffer empty gives the flag back only while the
buffer is still empty or another thread has its exchange ahead. -/
def KeepsWatch (state : State M) (action : Action M) : Prop :=
  GivesBack state action → state.messageBuffer = [] ∨ 0 < state.triers

instance [DecidableEq M] (state : State M) : (action : Action M) → Decidable (GivesBack state action)
  | .sender thread => inferInstanceAs (Decidable (state.senders[thread]? = some (.once .markIdle)))
  | .loop => inferInstanceAs (Decidable (state.loop = .once .markIdle))
  | .spawn | .call _ _ | .deliver _ _ | .drain | .reset | .resetter => .isFalse id

instance [DecidableEq M] (state : State M) (action : Action M) : Decidable (KeepsWatch state action) :=
  inferInstanceAs (Decidable (_ → _))

theorem after_tries (following : Option (Once M)) :
    (Loop.after following).tries = (Sender.after following).tries := by
  cases following <;> rfl

private theorem triers_moved {before after : State M} {thread : Nat} {old : Sender M}
    (found : before.senders[thread]? = some old) (new : Sender M)
    (senders : after.senders = before.senders.set thread new) (loop : after.loop = before.loop) :
    after.triers + old.tries = before.triers + new.tries := by
  have counted : Pool.total Sender.tries (before.senders.set thread new) + old.tries =
      Pool.total Sender.tries before.senders + new.tries := Pool.total_set found new
  simp only [State.triers, senders, loop]
  omega

private theorem triers_le {before after : State M} {thread : Nat} {old new : Sender M}
    (found : before.senders[thread]? = some old) (senders : after.senders = before.senders.set thread new)
    (more : old.tries ≤ new.tries) (loop : after.loop = before.loop) : before.triers ≤ after.triers := by
  have counted := triers_moved found new senders loop
  omega

/-- Only the mark lets go of a waiting message without anybody left to see it. -/
private theorem OnceStep.watched {before moved after : State M} {position following}
    (once : OnceStep before position moved following) (watched : before.Watched)
    (watch : position = .markIdle → before.messageBuffer = [] ∨ 0 < before.triers)
    (counted : after.triers + position.tries = before.triers + (Sender.after following).tries)
    (buffer : after.messageBuffer = moved.messageBuffer) (idle : after.eventLoopIdle = moved.eventLoopIdle) :
    after.Watched := by
  intro waiting
  rw [buffer] at waiting
  rw [idle]
  cases once with
  | claim => exact .inl rfl
  | busy down => exact .inl down
  | markIdle =>
    right
    simp only [Once.tries, Sender.after, Sender.tries] at counted
    rcases watch rfl with empty | trying
    · exact absurd empty waiting
    · omega
  | pop first =>
    simp only [Once.tries, Sender.after, Sender.tries, Nat.add_zero] at counted
    rw [counted]
    exact watched (by rw [first]; simp)
  | _ =>
    simp only [Once.tries, Sender.after, Sender.tries, Nat.add_zero] at counted
    rw [counted]
    exact watched waiting

private theorem State.Watched.frame {before after : State M} (watched : before.Watched)
    (buffer : after.messageBuffer = before.messageBuffer) (idle : after.eventLoopIdle = before.eventLoopIdle)
    (triers : before.triers ≤ after.triers) : after.Watched := by
  rw [State.Watched, buffer, idle]
  exact fun waiting => (watched waiting).imp_right fun trying => Nat.lt_of_lt_of_le trying triers

private theorem Step.watched {before after : State M} {action} (moves : Step before action after)
    (watched : before.Watched) (watch : KeepsWatch before action) : after.Watched := by
  cases moves with
  | spawn => exact watched.frame rfl rfl (by simp [State.triers, Sender.tries])
  | call found | total found | full found | overflow found =>
    exact watched.frame rfl rfl (triers_le found rfl (Nat.le_refl _) rfl)
  | room found => exact watched.frame rfl rfl (triers_le found rfl (Nat.zero_le _) rfl)
  | @push thread message found =>
    -- The pusher itself is about to try the flag.
    intro _
    right
    have pusher : Sender.tries (.push message) ≤ Pool.total Sender.tries before.senders :=
      Pool.weight_le (List.mem_of_getElem? found)
    have still : before.triers ≤ State.triers { before with
        messageBuffer := before.messageBuffer ++ [message]
        accepted := before.accepted ++ [message]
        senders := before.senders.set thread (.once .exchange) } := triers_le found rfl (Nat.le_refl _) rfl
    exact Nat.lt_of_lt_of_le (Nat.lt_of_lt_of_le pusher (Nat.le_add_right _ _)) still
  | senderOnce found once =>
    refine once.watched watched ?_ (triers_moved found _ (by rw [once.framed.senders]) once.framed.loop) rfl rfl
    exact fun mark => watch (show before.senders[_]? = _ from mark ▸ found)
  | loopOnce turn once =>
    refine once.watched watched (fun mark => watch (show before.loop = _ from mark ▸ turn)) ?_ rfl rfl
    simp only [State.triers, once.framed.senders, after_tries, turn]
    simp only [Loop.tries]
    omega
  | @deliver index ok operation waiting found =>
    have same : (operation.callback ok).tries = before.loop.tries := by rw [waiting]; cases operation <;> rfl
    exact watched.frame rfl rfl (Nat.le_of_eq (congrArg (Pool.total Sender.tries before.senders + ·) same.symm))
  | loopIdle turn => exact fun _ => .inr (by simp [State.triers, Loop.tries, Once.tries])
  | drain turn | sent turn | lost turn | checkReset turn | checkOk turn | checkFailed turn | isBusy turn =>
    exact watched.frame rfl rfl (Nat.le_of_eq (by simp only [State.triers, turn, Loop.tries]))
  | restart turn live =>
    exact watched.frame rfl rfl (Nat.le_of_eq (by simp only [State.triers, State.withStream, turn, Loop.tries]))
  | lateStart turn dead old =>
    rcases old with rfl | rfl <;>
      exact watched.frame rfl rfl (Nat.le_of_eq (by simp only [State.triers, State.fail, AsyncClient.resetStream, turn, Loop.tries]))
  | clear => exact fun waiting => absurd rfl waiting
  | _ => exact watched

/-- Between calls a waiting message has an operation outstanding that will come
back for it. -/
structure State.Served (state : State M) : Prop where
  outstanding : state.messageBuffer ≠ [] → state.outstanding ≠ []
  idle : state.eventLoopIdle = true → state.messageBuffer = []

private theorem State.Quiet.unheld {state : State M} (quiet : state.Quiet) :
    state.triers = 0 ∧ state.holders = 0 ∧ state.loop.handles = 0 := by
  refine ⟨?_, ?_, by rw [quiet.loop]; rfl⟩
  · rw [State.triers, quiet.between.outside rfl, quiet.loop]
    rfl
  · rw [State.holders, quiet.between.outside rfl, quiet.loop]
    rfl

/-- The mark that leaves a message behind: its thread had the only permit, and
afterwards nobody has the flag ahead and no operation is outstanding. -/
theorem stranded {before after : State M} {action} (reached : Reaches before)
    (executed : step before action = some after) (careless : ¬ KeepsWatch before action) :
    after.messageBuffer ≠ [] ∧ after.eventLoopIdle = true ∧ after.triers = 0 ∧ after.outstanding = [] := by
  obtain ⟨gives, waiting⟩ := Classical.not_imp.mp careless
  obtain ⟨waiting, triers⟩ := not_or.mp waiting
  have sole := reached.sound.permits_le
  cases (step_cases executed).2 with
  | senderOnce found once =>
    obtain rfl := Sender.once.inj (Option.some.inj (found.symm.trans gives))
    have held : 1 ≤ Pool.total Sender.holds before.senders := thread_le found
    simp only [State.permits, State.holders, State.operations] at sole
    have none : before.outstanding = [] := List.eq_nil_of_length_eq_zero (by omega)
    cases once
    refine ⟨waiting, rfl, ?_, none⟩
    have counted : Pool.total Sender.tries (before.senders.set _ .outside) + 0 =
        Pool.total Sender.tries before.senders + 0 := Pool.total_set found _
    simp only [State.triers, Sender.after] at triers ⊢
    omega
  | loopOnce turn once =>
    obtain rfl := Loop.once.inj (turn.symm.trans gives)
    rw [State.triers, turn] at triers
    simp only [State.permits, State.holders, State.operations, turn, Loop.holds, Once.holds] at sole
    have none : before.outstanding = [] := List.eq_nil_of_length_eq_zero (by omega)
    cases once
    exact ⟨waiting, rfl, Nat.eq_zero_of_not_pos triers, none⟩
  | total found | full found | room found | overflow found | push found =>
    cases found.symm.trans gives
  | sent turn | lost turn | checkReset turn | checkOk turn | checkFailed turn | loopIdle turn | notBusy turn
  | isBusy turn | restart turn | lateStart turn => cases turn.symm.trans gives
  | _ => exact gives.elim

theorem waiting_messages_served {state : State M} {actions : List (Action M)}
    (executed : exec step constructed actions = some state) (watch : Along step KeepsWatch constructed actions)
    (before : state.BeforeReset) (quiet : state.Quiet) : state.Served := by
  have watched : state.Watched := by
    refine invariant (fun _ _ _ kept watch executed => (step_cases executed).2.watched kept watch) ?_ watch executed
    rw [constructed_eq]
    exact fun waiting => absurd rfl waiting
  obtain ⟨triers, holders, handles⟩ := quiet.unheld
  have down : state.messageBuffer ≠ [] → state.eventLoopIdle = false := by
    intro waiting
    rcases watched waiting with down | trying
    · exact down
    · omega
  refine ⟨?_, ?_⟩
  · intro waiting none
    -- With the flag down the permit can only be an operation.
    have one := (Reaches.sound ⟨actions, executed⟩).permits_eq before.unset
    simp only [State.permits, State.operations, down waiting, holders, handles, none, Bool.toNat_false] at one
    cases one
  · intro idle
    by_contra waiting
    rw [down waiting] at idle
    cases idle

/-- The event loop finds the buffer empty and raises the flag again before the
message is there. -/
def attendedRun : List (Action Nat) :=
  [.spawn, .deliver 0 true, .loop, .loop, .loop, .loop, .loop, .loop, .call 0 7, .sender 0, .sender 0, .sender 0,
    .sender 0, .sender 0, .sender 0, .sender 0]

theorem waiting_messages_served_attended :
    ∃ state : State Nat, exec step constructed attendedRun = some state ∧ state.Served :=
  ⟨_, rfl, waiting_messages_served (show exec step constructed attendedRun = some _ from rfl) (by decide) ⟨rfl, rfl⟩ ⟨by decide, rfl⟩⟩

/-- The message arrives between the pop and the mark. -/
def strandingRun : List (Action Nat) :=
  [.spawn, .deliver 0 true, .loop, .loop, .loop, .loop, .loop, .call 0 7, .sender 0, .sender 0, .sender 0, .sender 0,
    .loop]

theorem message_stranded :
    ∃ state : State Nat, exec step constructed strandingRun = some state ∧ state.BeforeReset ∧ state.Quiet ∧
      state.messageBuffer = [7] ∧ state.eventLoopIdle = true ∧ state.outstanding = [] :=
  ⟨_, rfl, ⟨rfl, rfl⟩, ⟨by decide, rfl⟩, rfl, rfl, rfl⟩

end Cpp2Sky.AsyncClient
