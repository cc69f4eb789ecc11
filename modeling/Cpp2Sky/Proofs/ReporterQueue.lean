import Cpp2Sky.Library.Fifo
import Cpp2Sky.Proofs.ReporterPermit

/-! Before the client is reset the reporter is a first in, first out channel.
Pop and Write lie inside one tenure of the permit, so no other thread can pop
between them and no stream is replaced between them. -/

namespace Cpp2Sky.AsyncClient
open Runs

variable {M : Type}

def Once.popped : Once M → List M
  | .write message => [message]
  | .exchange | .assertStream | .popFront | .markIdle => []

def Sender.popped : Sender M → List M
  | .once position => position.popped
  | .outside | .total _ | .size _ | .overflow _ | .push _ => []

def Loop.popped : Loop M → List M
  | .once position => position.popped
  | .next | .count _ _ | .check _ | .markIdle | .assertBusy | .startStream | .finished => []

/-- Messages popped by some thread and not yet handed to Write. -/
def State.popped (state : State M) : List M := state.senders.flatMap Sender.popped ++ state.loop.popped

/-- What the reporter is for: messages are handed to Write over all streams. -/
def State.channel (state : State M) : Fifo.Channel M where
  handed := state.written.map Prod.snd
  pending := state.popped ++ state.messageBuffer

private theorem Once.light {position : Once M} (none : position.holds = 0) : position.popped = [] := by
  cases position <;> first | rfl | cases none

private theorem Sender.light (sender : Sender M) (none : sender.holds = 0) : sender.popped = [] := by
  cases sender <;> first | rfl | exact Once.light none

private theorem Loop.light (loop : Loop M) (none : loop.holds = 0) : loop.popped = [] := by
  cases loop <;> first | rfl | exact Once.light none

theorem after_popped (following : Option (Once M)) :
    (Loop.after following).popped = (Sender.after following).popped := by
  cases following <;> rfl

/-- What a step of `sendMessageOnce` does to the channel, given what its own
thread has popped. -/
private theorem OnceStep.channel {before moved : State M} {position following}
    (once : OnceStep before position moved following) :
    Fifo.Step ⟨before.written.map Prod.snd, position.popped ++ before.messageBuffer⟩ []
      ⟨moved.written.map Prod.snd, (Sender.after following).popped ++ moved.messageBuffer⟩ := by
  cases once with
  | @pop message rest buffer =>
    simp only [Once.popped, Sender.after, Sender.popped, List.nil_append, List.cons_append, buffer]
    exact .stay
  | write active live =>
    simp only [Once.popped, Sender.after, Sender.popped, List.nil_append, List.cons_append, List.map_append,
      List.map_cons, List.map_nil]
    exact .hand rfl
  | _ => exact .stay

/-- A thread that holds the permit is the only one that has popped anything. -/
private theorem popped_alone {before : State M} (sole : before.permits ≤ 1) {thread : Nat} {position : Once M}
    (found : before.senders[thread]? = some (.once position)) (new : Sender M) (held : position.holds = 1) :
    before.popped = position.popped ∧ (before.senders.set thread new).flatMap Sender.popped ++ before.loop.popped = new.popped := by
  have counted := thread_le found
  simp only [State.permits, State.holders, Sender.holds] at sole counted
  obtain ⟨whole, moved⟩ := Pool.flatMap_alone Sender.light found (by simp only [Sender.holds]; omega) new
  rw [State.popped, whole, moved, Loop.light before.loop (by omega)]
  exact ⟨List.append_nil _, List.append_nil _⟩

/-- Without the permit a thread can only try the flag. -/
private theorem OnceStep.without {before moved : State M} {position following}
    (once : OnceStep before position moved following) (free : position.holds ≠ 1) :
    position.popped = [] ∧ (Sender.after following).popped = [] ∧
      moved.written = before.written ∧ moved.messageBuffer = before.messageBuffer := by
  cases once with
  | claim | busy => exact ⟨rfl, rfl, rfl, rfl⟩
  | _ => exact absurd rfl free

private theorem sender_channel {before moved : State M} {thread : Nat} {position following}
    (sole : before.permits ≤ 1) (found : before.senders[thread]? = some (.once position))
    (once : OnceStep before position moved following) :
    Fifo.Step before.channel [] { moved with senders := moved.senders.set thread (.after following) }.channel := by
  simp only [State.channel, State.popped, once.framed.senders, once.framed.loop]
  by_cases held : position.holds = 1
  · obtain ⟨popped, left⟩ := popped_alone sole found (.after following) held
    rw [← State.popped, popped, left]
    exact once.channel
  · obtain ⟨nothing, still, written, buffer⟩ := once.without held
    rw [Pool.flatMap_same found (still.trans nothing.symm), written, buffer]
    exact .stay

private theorem loop_channel {before moved : State M} {position following}
    (sole : before.permits ≤ 1) (turn : before.loop = .once position)
    (once : OnceStep before position moved following) :
    Fifo.Step before.channel [] { moved with loop := .after following }.channel := by
  simp only [State.channel, State.popped, once.framed.senders, after_popped]
  simp only [turn, Loop.popped]
  by_cases held : position.holds = 1
  · simp only [State.permits, State.holders, turn, Loop.holds] at sole
    rw [Pool.flatMap_empty Sender.light (by omega), List.nil_append]
    exact once.channel
  · obtain ⟨nothing, still, written, buffer⟩ := once.without held
    rw [nothing, still, written, buffer]
    exact .stay

private theorem popped_moved {before after : State M} {thread : Nat} {old new : Sender M}
    (found : before.senders[thread]? = some old) (senders : after.senders = before.senders.set thread new)
    (same : new.popped = old.popped) (loop : after.loop = before.loop) : after.popped = before.popped := by
  simp only [State.popped, senders, loop, Pool.flatMap_same found same]

private theorem reported_popped {before : State M} {index : Nat} {operation : Operation M} {ok : Bool}
    (waiting : before.loop = .next) : (before.reported index operation ok).popped = before.popped := by
  have same : (operation.callback ok).popped = before.loop.popped := by rw [waiting]; cases operation <;> rfl
  exact congrArg (before.senders.flatMap Sender.popped ++ ·) same

private theorem channel_stay {before after : State M} (written : after.written = before.written)
    (popped : after.popped = before.popped) (buffer : after.messageBuffer = before.messageBuffer)
    (accepted : after.accepted = before.accepted) :
    ∃ new, Fifo.Step before.channel new after.channel ∧ after.accepted = before.accepted ++ new := by
  refine ⟨[], ?_, by rw [accepted, List.append_nil]⟩
  rw [State.channel, State.channel, written, popped, buffer]
  exact .stay

/-- The reporter refines the channel: each step accepts one message at the back,
hands one over from the front, or leaves the channel alone. Only the clear of
`resetClient` does something else. -/
theorem Step.channel_unless_clear {before after : State M} {action} (moves : Step before action after)
    (kept : Sound before) (stays : action = .resetter → before.resetter ≠ .clear) :
    ∃ new, Fifo.Step before.channel new after.channel ∧ after.accepted = before.accepted ++ new := by
  cases moves with
  | spawn => exact channel_stay rfl (by simp [State.popped, Sender.popped]) rfl rfl
  | call found | total found | full found | room found | overflow found =>
    exact channel_stay rfl (popped_moved found rfl rfl rfl) rfl rfl
  | @push thread message found =>
    refine ⟨[message], ?_, rfl⟩
    simp only [State.channel, State.popped]
    rw [Pool.flatMap_same found (show Sender.popped (.once .exchange) = Sender.popped (.push message) from rfl),
      ← List.append_assoc]
    exact .accept message
  | senderOnce found once =>
    exact ⟨[], sender_channel kept.permits_le found once, by simp [once.framed.accepted]⟩
  | loopOnce turn once =>
    exact ⟨[], loop_channel kept.permits_le turn once, by simp [once.framed.accepted]⟩
  | deliver waiting found => exact channel_stay rfl (reported_popped waiting) rfl rfl
  | drain turn | sent turn | lost turn | checkReset turn | checkOk turn | checkFailed turn | loopIdle turn | isBusy turn =>
    exact channel_stay rfl (by simp only [State.popped, turn, Loop.popped, Once.popped]) rfl rfl
  | restart turn live =>
    exact channel_stay rfl (by simp only [State.popped, State.withStream, turn, Loop.popped]) rfl rfl
  | lateStart turn dead old =>
    rcases old with rfl | rfl <;>
      exact channel_stay rfl (by simp only [State.popped, State.fail, AsyncClient.resetStream, turn, Loop.popped]) rfl rfl
  | clear turn => exact absurd turn (stays rfl)
  | _ => exact channel_stay rfl rfl rfl rfl

theorem Step.channel {before after : State M} {action} (moves : Step before action after)
    (kept : Sound before) (healthy : before.fault = none) (unset : before.clientReset = false) :
    ∃ new, Fifo.Step before.channel new after.channel ∧ after.accepted = before.accepted ++ new := by
  apply moves.channel_unless_clear kept
  intro _ turn
  have early := (kept.lifecycle healthy).uncalled unset
  simp [turn] at early

theorem Reaches.channel {state : State M} (reached : Reaches state) :
    state.clientReset = false → state.channel.accepted = state.accepted := by
  refine Reachable.induct reached ?_ ?_
  · intro _
    rw [constructed_eq]
    rfl
  · intro before action after reached same executed unset
    obtain ⟨healthy, moves⟩ := step_cases executed
    have unset := moves.unset unset
    obtain ⟨new, refined, pushed⟩ := moves.channel (Reaches.sound reached) healthy unset
    rw [refined.accepted, same unset, pushed]

structure State.Ordered (state : State M) : Prop where
  accepted : state.written.map Prod.snd ++ state.popped ++ state.messageBuffer = state.accepted
  popped : state.popped.length ≤ 1
  written : state.written.map Prod.snd <+: state.accepted
  /-- A failed operation, and the new stream it leads to, leave the queue alone. -/
  failure : ∀ action after, step state action = some after →
    (∃ index, action = .deliver index false) ∨
      action = .loop ∧ (state.loop.failing = true ∨ ∃ message, state.loop = .count message false) →
    after.written = state.written ∧ after.popped = state.popped ∧ after.messageBuffer = state.messageBuffer

private theorem Step.failure {before after : State M} {action} (moves : Step before action after)
    (failed : (∃ index, action = .deliver index false) ∨
      action = .loop ∧ (before.loop.failing = true ∨ ∃ message, before.loop = .count message false)) :
    after.written = before.written ∧ after.popped = before.popped ∧ after.messageBuffer = before.messageBuffer := by
  cases moves with
  | deliver waiting found => exact ⟨rfl, reported_popped waiting, rfl⟩
  | lost turn | checkReset turn | checkFailed turn | isBusy turn =>
    exact ⟨rfl, by simp only [State.popped, turn, Loop.popped], rfl⟩
  | notBusy => exact ⟨rfl, rfl, rfl⟩
  | restart turn live => exact ⟨rfl, by simp only [State.popped, State.withStream, turn, Loop.popped], rfl⟩
  | lateStart turn dead old =>
    rcases old with rfl | rfl <;>
      exact ⟨rfl, by simp only [State.popped, State.fail, AsyncClient.resetStream, turn, Loop.popped], rfl⟩
  | sent turn | checkOk turn | loopIdle turn | loopOnce turn => simp [turn, Loop.failing] at failed
  | _ => simp at failed

private theorem popped_length_le (pool : List (Sender M)) :
    (pool.flatMap Sender.popped).length ≤ Pool.total Sender.holds pool := by
  induction pool with
  | nil => simp
  | cons sender rest ih =>
    have light : sender.popped.length ≤ sender.holds := by
      cases sender with
      | once position => cases position <;> simp [Sender.popped, Once.popped, Sender.holds, Once.holds]
      | _ => simp [Sender.popped]
    simp only [List.flatMap_cons, List.length_append, Pool.total, List.map_cons, List.sum_cons] at ih ⊢
    omega

theorem messages_in_order {state : State M} (reached : Reaches state) (before : state.BeforeReset) :
    state.Ordered := by
  have accepted := reached.channel before.unset
  refine ⟨?_, ?_, ?_, ?_⟩
  · rw [List.append_assoc]
    exact accepted
  · have sole := reached.sound.permits_le
    have senders := popped_length_le state.senders
    have loop : state.loop.popped.length ≤ state.loop.holds := by
      cases state.loop with
      | once position => cases position <;> simp [Loop.popped, Once.popped, Loop.holds, Once.holds]
      | _ => simp [Loop.popped]
    simp only [State.permits, State.holders] at sole
    simp only [State.popped, List.length_append]
    omega
  · rw [← accepted]
    exact state.channel.handed_prefix
  · exact fun action after executed failed => (step_cases executed).2.failure failed

/-- The first Write fails, and the second message goes out on a new stream. -/
def reconnectRun : List (Action Nat) :=
  [.spawn, .deliver 0 true, .loop, .loop, .loop, .loop, .loop, .loop,
    .call 0 7, .sender 0, .sender 0, .sender 0, .sender 0, .sender 0, .sender 0, .sender 0,
    .call 0 8, .sender 0, .sender 0, .sender 0, .sender 0, .deliver 0 false, .loop, .loop, .loop, .loop,
    .deliver 0 true, .loop, .loop, .loop, .loop, .loop, .loop]

theorem messages_in_order_reconnect :
    ∃ state : State Nat, exec step constructed reconnectRun = some state ∧
      state.written = [(0, 7), (1, 8)] ∧ state.dropped = [7] ∧ state.Ordered :=
  ⟨_, rfl, by decide, by decide, messages_in_order ⟨reconnectRun, rfl⟩ ⟨rfl, rfl⟩⟩

end Cpp2Sky.AsyncClient
