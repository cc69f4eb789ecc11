import Mathlib.Algebra.Order.Group.Multiset
import Cpp2Sky.Proofs.ReporterQueue

/-! Every message handed to the reporter is in one place: sent, dropped, in the
buffer, inside a Write, or carried by a thread in the middle of a call. -/

namespace Cpp2Sky.AsyncClient
open Runs

variable {M : Type}

def Once.carries : Once M → Multiset M
  | .write message => {message}
  | .exchange | .assertStream | .popFront | .markIdle => 0

/-- A message is carried from the count of its call until it is counted again,
pushed, or handed to Write. -/
def Sender.carries : Sender M → Multiset M
  | .size message | .overflow message | .push message => {message}
  | .once position => position.carries
  | .outside | .total _ => 0

def Loop.carries : Loop M → Multiset M
  | .count message _ => {message}
  | .once position => position.carries
  | .next | .check _ | .markIdle | .assertBusy | .startStream | .finished => 0

def Operation.carries : Operation M → Multiset M
  | .startCall _ => 0
  | .write _ message => {message}

def State.inflight (state : State M) : Multiset M := Pool.total Operation.carries state.outstanding

def State.carried (state : State M) : Multiset M := Pool.total Sender.carries state.senders + state.loop.carries

theorem after_carries (following : Option (Once M)) :
    (Loop.after following).carries = (Sender.after following).carries := by
  cases following <;> rfl

/-- A step of `sendMessageOnce` moves a message between the buffer, its own
thread and a Write. -/
private theorem OnceStep.moves {before moved : State M} {position following}
    (once : OnceStep before position moved following) :
    (moved.messageBuffer : Multiset M) + moved.inflight + (Sender.after following).carries =
      before.messageBuffer + before.inflight + position.carries := by
  cases once with
  | @pop message rest buffer =>
    simp only [State.inflight, Sender.after, Sender.carries, Once.carries, buffer, ← Multiset.cons_coe,
      ← Multiset.singleton_add]
    abel
  | write active live =>
    simp only [State.inflight, Sender.after, Sender.carries, Once.carries, Operation.carries, Pool.total_append, Pool.total_singleton]
    abel
  | _ => rfl

/-- The messages that were counted, wait in the buffer, or are inside a Write. -/
def State.placed (state : State M) : Multiset M :=
  state.sent + state.dropped + state.messageBuffer + state.inflight

private theorem OnceStep.balance {before moved : State M} {position following}
    (once : OnceStep before position moved following) :
    moved.placed + (Sender.after following).carries + before.submitted =
      before.placed + position.carries + moved.submitted := by
  have counted : ∀ state : State M, ∀ carried : Multiset M,
      state.placed + carried = state.sent + state.dropped + (state.messageBuffer + state.inflight + carried) := by
    intro state carried
    simp only [State.placed]
    abel
  rw [counted, counted, once.moves, once.framed.sent, once.framed.dropped, once.framed.submitted]

/-- What a step throws away uncounted: `resetClient` clears the buffer. -/
def State.discards (state : State M) : Action M → Multiset M
  | .resetter => if state.resetter = .clear then state.messageBuffer else 0
  | .spawn | .call _ _ | .sender _ | .deliver _ _ | .drain | .loop | .reset => 0

/-- A thread that moves a message changes what it carries by as much as it
changes what is placed, submitted or thrown away. -/
private theorem balanced {submitted submitted' placed placed' carried carried' old new rest gone : Multiset M}
    (moved : carried' + old = carried + new)
    (balance : placed' + new + gone + submitted = placed + old + submitted') :
    placed' + (carried' + rest) + gone + submitted = placed + (carried + rest) + submitted' := by
  apply add_right_cancel (b := old)
  calc
    placed' + (carried' + rest) + gone + submitted + old = placed' + gone + submitted + rest + (carried' + old) := by abel
    _ = placed' + new + gone + submitted + (rest + carried) := by
      rw [moved]
      abel
    _ = placed + (carried + rest) + submitted' + old := by
      rw [balance]
      abel

private theorem thread_accounts {before after : State M} {thread : Nat} {old new : Sender M}
    (found : before.senders[thread]? = some old) (senders : after.senders = before.senders.set thread new)
    (loop : after.loop = before.loop)
    (balance : after.placed + new.carries + before.submitted = before.placed + old.carries + after.submitted) :
    after.placed + after.carried + 0 + before.submitted = before.placed + before.carried + after.submitted := by
  rw [State.carried, State.carried, senders, loop]
  exact balanced (Pool.total_set found new) (by rw [add_zero]; exact balance)

private theorem loop_accounts {before after : State M} {gone : Multiset M} (senders : after.senders = before.senders)
    (balance : after.placed + after.loop.carries + gone + before.submitted =
      before.placed + before.loop.carries + after.submitted) :
    after.placed + after.carried + gone + before.submitted = before.placed + before.carried + after.submitted := by
  rw [State.carried, State.carried, senders, add_comm (Pool.total _ _), add_comm (Pool.total _ _)]
  exact balanced (add_comm after.loop.carries before.loop.carries) balance

theorem Step.accounts {before after : State M} {action} (moves : Step before action after) :
    after.placed + after.carried + before.discards action + before.submitted =
      before.placed + before.carried + after.submitted := by
  cases moves with
  | spawn => simp [State.placed, State.carried, State.inflight, Sender.carries, State.discards]
  | call found => exact thread_accounts found rfl rfl rfl
  | full found | room found => exact thread_accounts found rfl rfl rfl
  | total found =>
    refine thread_accounts found rfl rfl ?_
    simp only [State.placed, State.inflight, Sender.carries, ← Multiset.coe_add, Multiset.coe_singleton]
    abel
  | overflow found =>
    refine thread_accounts found rfl rfl ?_
    simp only [State.placed, State.inflight, Sender.carries, ← Multiset.coe_add, Multiset.coe_singleton]
    abel
  | push found =>
    refine thread_accounts found rfl rfl ?_
    simp only [State.placed, State.inflight, Sender.carries, Once.carries, ← Multiset.coe_add, Multiset.coe_singleton]
    abel
  | senderOnce found once =>
    exact thread_accounts found (by rw [once.framed.senders]) once.framed.loop once.balance
  | @deliver index ok operation waiting found =>
    have carries : (operation.callback ok).carries = operation.carries := by cases operation <;> rfl
    have taken : Pool.total Operation.carries (before.outstanding.eraseIdx index) + operation.carries =
        Pool.total Operation.carries before.outstanding := Pool.total_eraseIdx found
    refine loop_accounts rfl ?_
    simp only [State.placed, State.inflight, State.reported, State.discards, carries, ← taken]
    rw [waiting, Loop.carries]
    abel
  | sent turn | lost turn =>
    refine loop_accounts rfl ?_
    simp only [State.placed, State.inflight, State.discards, turn, Loop.carries, ← Multiset.coe_add, Multiset.coe_singleton]
    abel
  | loopOnce turn once =>
    refine loop_accounts once.framed.senders ?_
    simp only [turn, after_carries, State.discards, add_zero]
    exact once.balance
  | drain turn | checkReset turn | checkOk turn | checkFailed turn | loopIdle turn | isBusy turn =>
    exact loop_accounts rfl (by rw [turn]; simp only [State.discards, add_zero]; rfl)
  | restart turn live =>
    refine loop_accounts rfl ?_
    simp [State.placed, State.inflight, State.withStream, turn, Loop.carries, Operation.carries, State.discards]
  | lateStart turn dead old =>
    rcases old with rfl | rfl <;>
      exact loop_accounts rfl (by rw [turn]; simp only [State.discards, add_zero]; rfl)
  | clear turn =>
    refine loop_accounts rfl ?_
    simp only [State.placed, State.inflight, State.discards, turn, if_true, Multiset.coe_nil]
    abel
  | store turn | exitAgain turn | exit turn | shutdown turn | join turn | resetStream turn =>
    exact loop_accounts rfl (by simp only [State.discards, turn, reduceCtorEq, if_false, add_zero]; rfl)
  | notBusy | reset => exact loop_accounts rfl (by simp only [State.discards, add_zero]; rfl)

theorem Reaches.everywhere {state : State M} (reached : Reaches state) :
    state.clientReset = false → (state.submitted : Multiset M) = state.placed + state.carried := by
  refine Reachable.induct reached ?_ ?_
  · intro _
    rw [constructed_eq]
    rfl
  · intro before action after reached kept executed unset
    obtain ⟨healthy, moves⟩ := step_cases executed
    have unset := moves.unset unset
    have nothing : before.discards action = 0 := by
      have early := ((Reaches.sound reached).lifecycle healthy).uncalled unset
      cases action with
      | resetter =>
        apply if_neg
        intro turn
        simp [turn] at early
      | _ => rfl
    have accounts := moves.accounts
    rw [nothing, add_zero, kept unset, add_comm _ (after.submitted : Multiset M)] at accounts
    exact (add_right_cancel accounts).symm

/-- The three atomic counters, as wrapping 64-bit numbers of counted messages. -/
structure Counted (state : State M) : Prop where
  total : state.messagesTotal = UInt64.ofNat state.submitted.length
  sent : state.messagesSent = UInt64.ofNat state.sent.length
  dropped : state.messagesDropped = UInt64.ofNat state.dropped.length

private theorem counted_one (counted : List M) (message : M) :
    UInt64.ofNat counted.length + 1 = UInt64.ofNat (counted ++ [message]).length := by
  rw [List.length_append, UInt64.ofNat_add]
  rfl

private theorem Counted.once {before moved : State M} {position following} (kept : Counted before)
    (once : OnceStep before position moved following) : Counted moved := by
  refine ⟨?_, ?_, ?_⟩
  · rw [once.framed.messagesTotal, once.framed.submitted, kept.total]
  · rw [once.framed.messagesSent, once.framed.sent, kept.sent]
  · rw [once.framed.messagesDropped, once.framed.dropped, kept.dropped]

private theorem Step.counted {before after : State M} {action} (moves : Step before action after)
    (kept : Counted before) : Counted after := by
  cases moves with
  | senderOnce found once | loopOnce turn once =>
    have counted := kept.once once
    exact ⟨counted.total, counted.sent, counted.dropped⟩
  | total => exact ⟨by rw [← counted_one, kept.total], kept.sent, kept.dropped⟩
  | sent => exact ⟨kept.total, by rw [← counted_one, kept.sent], kept.dropped⟩
  | overflow | lost => exact ⟨kept.total, kept.sent, by rw [← counted_one, kept.dropped]⟩
  | lateStart turn dead old => rcases old with rfl | rfl <;> exact ⟨kept.total, kept.sent, kept.dropped⟩
  | _ => exact ⟨kept.total, kept.sent, kept.dropped⟩

theorem Reaches.counted {state : State M} (reached : Reaches state) : Counted state := by
  refine Reachable.induct reached ?_ ?_
  · rw [constructed_eq]
    exact ⟨rfl, rfl, rfl⟩
  · exact fun _ _ _ _ kept executed => (step_cases executed).2.counted kept

def Operation.isWrite : Operation M → Bool
  | .startCall _ => false
  | .write _ _ => true

/-- Accounting between calls: on the counters, on the numbers of messages behind
them, and message by message. -/
structure State.Balanced (state : State M) : Prop where
  counters : state.messagesTotal = state.messagesSent + state.messagesDropped +
    UInt64.ofNat state.messageBuffer.size + if state.outstanding.any Operation.isWrite then 1 else 0
  counted : Counted state
  bounded : state.sent.length + state.dropped.length ≤ state.submitted.length
  unwrapped : state.submitted.length < 2 ^ 64 →
    state.messagesSent.toNat + state.messagesDropped.toNat ≤ state.messagesTotal.toNat
  messages : (state.submitted : Multiset M) =
    state.sent + state.dropped + state.messageBuffer + state.inflight
  once : state.submitted.Nodup → (state.sent ++ state.dropped).Nodup

/-- Between calls only a Write can hold a message outside the buffer. -/
theorem State.Between.carried {state : State M} (between : state.Between) : state.carried = 0 := by
  have resting := between.loop
  have loop : state.loop.carries = 0 := by
    cases turn : state.loop with
    | next | finished => rfl
    | _ =>
      rw [turn] at resting
      cases resting
  rw [State.carried, between.outside rfl, loop, add_zero]

theorem State.Quiet.carried {state : State M} (quiet : state.Quiet) : state.carried = 0 := quiet.between.carried

private theorem card_inflight {state : State M} (sole : state.permits ≤ 1) :
    Multiset.card state.inflight = if state.outstanding.any Operation.isWrite then 1 else 0 := by
  have few : state.outstanding.length ≤ 1 := by
    simp only [State.permits, State.operations] at sole
    omega
  cases only : state.outstanding with
  | nil => simp [State.inflight, only]
  | cons operation rest =>
    obtain rfl : rest = [] := List.eq_nil_of_length_eq_zero (by rw [only, List.length_cons] at few; omega)
    cases operation <;> simp [State.inflight, only, Pool.total, Operation.carries, Operation.isWrite]

theorem messages_accounted {state : State M} (reached : Reaches state) (before : state.BeforeReset)
    (quiet : state.Quiet) : state.Balanced := by
  have messages := reached.everywhere before.unset
  rw [quiet.carried, add_zero, State.placed] at messages
  have counted := reached.counted
  have sizes : state.submitted.length = state.sent.length + state.dropped.length + state.messageBuffer.length +
      if state.outstanding.any Operation.isWrite then 1 else 0 := by
    have cards := congrArg Multiset.card messages
    simpa only [Multiset.card_add, Multiset.coe_card, card_inflight reached.sound.permits_le] using cards
  refine ⟨?_, counted, by omega, ?_, messages, ?_⟩
  · rw [counted.total, counted.sent, counted.dropped, sizes]
    simp only [UInt64.ofNat_add, ValueBuffer.size]
    split <;> rfl
  · intro few
    rw [counted.total, counted.sent, counted.dropped]
    simp only [UInt64.toNat_ofNat', Nat.mod_eq_of_lt few]
    rw [Nat.mod_eq_of_lt (by omega), Nat.mod_eq_of_lt (by omega)]
    omega
  · intro distinct
    have whole : (state.sent : Multiset M) + state.dropped ≤ state.submitted := by
      rw [messages, add_assoc _ (state.messageBuffer : Multiset M)]
      exact Multiset.le_add_right _ _
    rw [← Multiset.coe_nodup] at distinct ⊢
    exact Multiset.nodup_of_le whole distinct

/-- One message lost with its stream, one inside a Write. -/
theorem messages_accounted_reconnect :
    ∃ state : State Nat, exec step constructed reconnectRun = some state ∧
      state.inflight = {8} ∧ state.Balanced :=
  ⟨_, rfl, rfl, messages_accounted ⟨reconnectRun, rfl⟩ ⟨rfl, rfl⟩ ⟨by decide, rfl⟩⟩

end Cpp2Sky.AsyncClient
