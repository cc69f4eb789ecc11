import Cpp2Sky.Library.Pool
import Cpp2Sky.Proofs.ReporterSteps

/-! The right to touch the stream is one permit. It lies in the idle flag, with
a thread between its exchange and its Write or mark, or with one operation until
a callback has marked the loop idle or started a new stream. -/

namespace Cpp2Sky.AsyncClient
open Runs

variable {M : Type}

/-- Past a successful exchange, before the Write or the mark. -/
def Once.holds : Once M → Nat
  | .exchange => 0
  | .assertStream | .popFront | .markIdle | .write _ => 1

def Sender.holds : Sender M → Nat
  | .outside | .total _ | .size _ | .overflow _ | .push _ => 0
  | .once position => position.holds

def Loop.holds : Loop M → Nat
  | .next | .count _ _ | .check _ | .markIdle | .assertBusy | .startStream | .finished => 0
  | .once position => position.holds

/-- Inside a callback that has neither marked the loop idle nor started a stream. -/
def Loop.handles : Loop M → Nat
  | .count _ _ | .check _ | .markIdle | .assertBusy | .startStream => 1
  | .next | .once _ | .finished => 0

/-- Inside a callback on its way to a new stream. -/
def Loop.failing : Loop M → Bool
  | .check false | .assertBusy | .startStream => true
  | _ => false

def Operation.stream : Operation M → Nat
  | .startCall stream | .write stream _ => stream

def State.holders (state : State M) : Nat := Pool.total Sender.holds state.senders + state.loop.holds

def State.operations (state : State M) : Nat := state.outstanding.length + state.loop.handles

def State.permits (state : State M) : Nat := state.eventLoopIdle.toNat + state.holders + state.operations

theorem State.Between.outside {β : Type} [AddCommMonoid β] {state : State M} (between : state.Between)
    {weight : Sender M → β} (none : weight .outside = 0) : Pool.total weight state.senders = 0 :=
  Pool.total_zero fun sender member => by rw [between.senders sender member, none]

theorem State.Quiet.between {state : State M} (quiet : state.Quiet) : state.Between :=
  ⟨quiet.senders, by rw [quiet.loop]; rfl⟩

structure Framed (before after : State M) : Prop where
  senders : after.senders = before.senders
  loop : after.loop = before.loop
  resetter : after.resetter = before.resetter
  clientReset : after.clientReset = before.clientReset
  exited : after.exited = before.exited
  queueShutdown : after.queueShutdown = before.queueShutdown
  activeStream : after.activeStream = before.activeStream
  started : after.started = before.started
  submitted : after.submitted = before.submitted
  accepted : after.accepted = before.accepted
  sent : after.sent = before.sent
  dropped : after.dropped = before.dropped
  messagesTotal : after.messagesTotal = before.messagesTotal
  messagesSent : after.messagesSent = before.messagesSent
  messagesDropped : after.messagesDropped = before.messagesDropped

theorem OnceStep.framed {before moved : State M} {position following}
    (once : OnceStep before position moved following) : Framed before moved := by
  cases once <;> exact ⟨rfl, rfl, rfl, rfl, rfl, rfl, rfl, rfl, rfl, rfl, rfl, rfl, rfl, rfl, rfl⟩

@[simp] theorem after_holds (following : Option (Once M)) :
    (Loop.after following).holds = (Sender.after following).holds := by
  cases following <;> rfl

@[simp] theorem after_handles (following : Option (Once M)) : (Loop.after following).handles = 0 := by
  cases following <;> rfl

/-- Inside `sendMessageOnce` the permit only changes hands. -/
theorem OnceStep.permit {before moved : State M} {position following}
    (once : OnceStep before position moved following) (sole : before.eventLoopIdle.toNat + position.holds ≤ 1) :
    moved.eventLoopIdle.toNat + (Sender.after following).holds + moved.outstanding.length =
      before.eventLoopIdle.toNat + position.holds + before.outstanding.length := by
  cases once with
  | claim idle => simp [idle, Sender.after, Sender.holds, Once.holds]
  | markIdle =>
    -- A thread that marks the loop idle holds the permit, so the flag was down.
    have down : before.eventLoopIdle.toNat = 0 := by simp only [Once.holds] at sole; omega
    simp [Sender.after, Sender.holds, Once.holds, down]
  | write active live => simp [Sender.after, Sender.holds, Once.holds, Nat.add_assoc, Nat.add_comm]
  | busy | present | absent | empty | pop | late | null => simp [State.fail, Sender.after, Sender.holds, Once.holds]

theorem total_holds {before : State M} {thread : Nat} {old : Sender M}
    (found : before.senders[thread]? = some old) (new : Sender M) :
    Pool.total Sender.holds (before.senders.set thread new) + old.holds =
      Pool.total Sender.holds before.senders + new.holds := Pool.total_set found new

private theorem same_thread {before : State M} {thread : Nat} {old new : Sender M}
    (found : before.senders[thread]? = some old) (same : new.holds = old.holds) :
    Pool.total Sender.holds (before.senders.set thread new) = Pool.total Sender.holds before.senders := by
  have counted := total_holds found new
  omega

theorem thread_le {before : State M} {thread : Nat} {sender : Sender M}
    (found : before.senders[thread]? = some sender) : sender.holds ≤ Pool.total Sender.holds before.senders :=
  Pool.weight_le (List.mem_of_getElem? found)

@[simp] theorem callback_handles (operation : Operation M) (ok : Bool) : (operation.callback ok).handles = 1 := by
  cases operation <;> rfl

@[simp] theorem callback_holds (operation : Operation M) (ok : Bool) : (operation.callback ok).holds = 0 := by
  cases operation <;> rfl

/-- A thread whose step neither takes nor gives the permit. -/
private theorem permits_moved {before after : State M} {thread : Nat} {old new : Sender M}
    (found : before.senders[thread]? = some old) (senders : after.senders = before.senders.set thread new)
    (same : new.holds = old.holds) (idle : after.eventLoopIdle = before.eventLoopIdle)
    (loop : after.loop = before.loop) (outstanding : after.outstanding = before.outstanding) :
    after.permits = before.permits := by
  simp only [State.permits, State.holders, State.operations, senders, idle, loop, outstanding, same_thread found same]

/-- A step never makes a second permit, and loses the only one only when the
client was reset or its queue shut down. -/
theorem Step.permits {before after : State M} {action} (moves : Step before action after)
    (sole : before.permits ≤ 1) :
    after.permits = before.permits ∨
      after.permits = 0 ∧ (before.clientReset = true ∨ before.queueShutdown = true) := by
  unfold State.permits State.holders State.operations at sole ⊢
  cases moves with
  | spawn => simp [Sender.holds]
  | call found | total found | full found | room found | overflow found | push found =>
    exact .inl (permits_moved found rfl rfl rfl rfl rfl)
  | @senderOnce thread position moved following found once =>
    have held := thread_le found
    have counted := total_holds found (.after following)
    have passed := once.permit (by simp only [Sender.holds] at held; omega)
    left
    simp only [once.framed.senders, once.framed.loop, Sender.holds] at counted passed ⊢
    omega
  | deliver waiting found =>
    have inside := (List.getElem?_eq_some_iff.mp found).1
    left
    simp only [State.reported, callback_handles, callback_holds]
    simp only [waiting, Loop.holds, Loop.handles, List.length_eraseIdx_of_lt inside]
    omega
  | loopOnce turn once =>
    simp only [turn, Loop.holds] at sole
    have passed := once.permit (by omega)
    left
    simp only [once.framed.senders, after_holds, after_handles]
    simp only [turn, Loop.holds, Loop.handles]
    omega
  | loopIdle turn =>
    -- The callback handled the last operation, so nobody had raised the flag.
    have down : before.eventLoopIdle.toNat = 0 := by simp only [turn, Loop.handles] at sole; omega
    left
    simp only [down, turn, Loop.holds, Loop.handles, Once.holds, Bool.toNat_true]
    omega
  | checkReset turn set =>
    simp only [turn, Loop.holds, Loop.handles] at sole ⊢
    exact .inr ⟨by omega, .inl set⟩
  | restart turn live =>
    left
    simp [State.withStream, turn, Loop.holds, Loop.handles]
  | lateStart turn dead old =>
    right
    simp only [turn, Loop.holds, Loop.handles] at sole
    refine ⟨?_, .inr dead⟩
    rcases old with rfl | rfl <;> simp only [State.fail, AsyncClient.resetStream, Loop.holds, Loop.handles] <;> omega
  | drain turn | sent turn | lost turn | checkOk turn | checkFailed turn | notBusy turn | isBusy turn =>
    exact .inl (by simp only [turn, Loop.holds, Loop.handles])
  | reset | store | clear | exitAgain | exit | shutdown | join | resetStream => exact .inl rfl

/-- Where the client is in its life. The stream goes away and the queue shuts
down only on the way through `resetClient`, after the event loop thread ended. -/
structure Lifecycle (state : State M) : Prop where
  set : state.resetter ≠ .outside → state.resetter ≠ .store → state.clientReset = true
  exited : state.exited = true → state.clientReset = true
  shut : state.queueShutdown = true → state.exited = true
  joining : state.resetter = .join → state.queueShutdown = true
  finished : state.loop = .finished → state.queueShutdown = true
  resetting : state.resetter = .resetStream → state.loop = .finished
  closing : state.exited = true → state.resetter = .shutdown ∨ state.resetter = .join ∨ state.loop = .finished
  stream : state.activeStream = none → state.loop = .finished
  leaving : state.resetter = .shutdown → state.exited = true

theorem Lifecycle.constructed : Lifecycle (constructed : State M) := by
  rw [constructed_eq]
  constructor <;> simp [State.withStream]

/-- Between two calls of `resetClient` an exited event loop has ended. -/
theorem Lifecycle.ended {state : State M} (kept : Lifecycle state) (left : state.exited = true)
    (shutdown : state.resetter ≠ .shutdown) (join : state.resetter ≠ .join) : state.loop = .finished := by
  rcases kept.closing left with turn | turn | ended
  · exact absurd turn shutdown
  · exact absurd turn join
  · exact ended

/-- A sender leaves the client where it is in its life. -/
private theorem Lifecycle.outside {before after : State M} (kept : Lifecycle before)
    (resetter : after.resetter = before.resetter) (clientReset : after.clientReset = before.clientReset)
    (exited : after.exited = before.exited) (queueShutdown : after.queueShutdown = before.queueShutdown)
    (activeStream : after.activeStream = before.activeStream) (loop : after.loop = before.loop) : Lifecycle after := by
  refine ⟨?_, ?_, ?_, ?_, ?_, ?_, ?_, ?_, ?_⟩
  · simpa only [resetter, clientReset] using kept.set
  · simpa only [exited, clientReset] using kept.exited
  · simpa only [queueShutdown, exited] using kept.shut
  · simpa only [resetter, queueShutdown] using kept.joining
  · simpa only [loop, queueShutdown] using kept.finished
  · simpa only [resetter, loop] using kept.resetting
  · simpa only [exited, resetter, loop] using kept.closing
  · simpa only [activeStream, loop] using kept.stream
  · simpa only [resetter, exited] using kept.leaving

/-- So does a callback, which runs on a thread that has not ended. -/
private theorem Lifecycle.inside {before after : State M} (kept : Lifecycle before)
    (resetter : after.resetter = before.resetter) (clientReset : after.clientReset = before.clientReset)
    (exited : after.exited = before.exited) (queueShutdown : after.queueShutdown = before.queueShutdown)
    (activeStream : after.activeStream = none → before.activeStream = none)
    (running : before.loop ≠ .finished) (loop : after.loop ≠ .finished) : Lifecycle after := by
  refine ⟨?_, ?_, ?_, ?_, ?_, ?_, ?_, ?_, ?_⟩
  · simpa only [resetter, clientReset] using kept.set
  · simpa only [exited, clientReset] using kept.exited
  · simpa only [queueShutdown, exited] using kept.shut
  · simpa only [resetter, queueShutdown] using kept.joining
  · exact fun ended => absurd ended loop
  · exact fun turn => absurd (kept.resetting (resetter ▸ turn)) running
  · intro left
    rcases kept.closing (exited ▸ left) with turn | turn | ended
    · exact .inl (resetter.trans turn)
    · exact .inr (.inl (resetter.trans turn))
    · exact absurd ended running
  · exact fun absent => absurd (kept.stream (activeStream absent)) running
  · simpa only [resetter, exited] using kept.leaving

@[simp] theorem callback_ne_finished (operation : Operation M) (ok : Bool) : operation.callback ok ≠ .finished := by
  cases operation <;> simp [Operation.callback]

@[simp] theorem after_ne_finished (following : Option (Once M)) : Loop.after following ≠ .finished := by
  cases following <;> simp [Loop.after]

theorem Lifecycle.step {before after : State M} {action} (kept : Lifecycle before)
    (healthy : after.fault = none) (moves : Step before action after) : Lifecycle after := by
  cases moves with
  | spawn | call | total | full | room | overflow | push =>
    exact kept.outside rfl rfl rfl rfl rfl rfl
  | senderOnce found once =>
    exact kept.outside once.framed.resetter once.framed.clientReset once.framed.exited once.framed.queueShutdown
      once.framed.activeStream once.framed.loop
  | deliver waiting found =>
    exact kept.inside rfl rfl rfl rfl id (by simp [waiting]) (callback_ne_finished _ _)
  | drain waiting none dead =>
    exact ⟨kept.set, kept.exited, kept.shut, kept.joining, fun _ => dead, fun _ => rfl,
      fun _ => .inr (.inr rfl), fun _ => rfl, kept.leaving⟩
  | sent turn | lost turn | checkReset turn | checkOk turn | checkFailed turn | loopIdle turn | isBusy turn =>
    exact kept.inside rfl rfl rfl rfl id (by simp [turn]) (by simp)
  | loopOnce turn once =>
    exact kept.inside once.framed.resetter once.framed.clientReset once.framed.exited once.framed.queueShutdown
      (fun absent => once.framed.activeStream ▸ absent) (by simp [turn]) (after_ne_finished _)
  | restart turn live =>
    exact kept.inside rfl rfl rfl rfl (fun absent => by cases absent) (by simp [turn]) (by simp)
  | notBusy | lateStart => cases healthy
  | reset uncalled =>
    exact ⟨fun _ other => absurd rfl other, kept.exited, kept.shut, nofun, kept.finished, nofun,
      fun left => .inr (.inr (kept.ended left (by simp [uncalled]) (by simp [uncalled]))), kept.stream, nofun⟩
  | store turn =>
    exact ⟨fun _ _ => rfl, fun _ => rfl, kept.shut, nofun, kept.finished, nofun,
      fun left => .inr (.inr (kept.ended left (by simp [turn]) (by simp [turn]))), kept.stream, nofun⟩
  | clear turn =>
    exact ⟨fun _ _ => kept.set (by simp [turn]) (by simp [turn]), kept.exited, kept.shut, nofun, kept.finished, nofun,
      fun left => .inr (.inr (kept.ended left (by simp [turn]) (by simp [turn]))), kept.stream, nofun⟩
  | exitAgain turn exited =>
    have ended := kept.ended exited (by simp [turn]) (by simp [turn])
    exact ⟨fun _ _ => kept.set (by simp [turn]) (by simp [turn]), kept.exited, kept.shut, nofun, kept.finished,
      fun _ => ended, fun _ => .inr (.inr ended), kept.stream, nofun⟩
  | exit turn exited =>
    have set := kept.set (by simp [turn]) (by simp [turn])
    exact ⟨fun _ _ => set, fun _ => set, fun _ => rfl, nofun, kept.finished, nofun, fun _ => .inl rfl, kept.stream,
      fun _ => rfl⟩
  | shutdown turn =>
    have set := kept.set (by simp [turn]) (by simp [turn])
    exact ⟨fun _ _ => set, kept.exited, fun _ => kept.leaving turn, fun _ => rfl, fun _ => rfl, nofun,
      fun _ => .inr (.inl rfl), kept.stream, nofun⟩
  | join turn finished =>
    exact ⟨fun _ _ => kept.set (by simp [turn]) (by simp [turn]), kept.exited, kept.shut, nofun, kept.finished,
      fun _ => finished, fun _ => .inr (.inr finished), kept.stream, nofun⟩
  | resetStream turn =>
    have ended := kept.resetting turn
    exact ⟨fun inside => absurd rfl inside, kept.exited, kept.shut, nofun, kept.finished, nofun,
      fun _ => .inr (.inr ended), fun _ => ended, nofun⟩

/-- The operation that holds the permit is for the active stream, and until the
StartCall of that stream was reported with ok nobody else has the permit. -/
structure Streaming (state : State M) : Prop where
  active : ∀ operation ∈ state.outstanding, state.activeStream = some operation.stream
  ready : ∀ stream, state.activeStream = some stream → stream ∈ state.started ∨
    .startCall stream ∈ state.outstanding ∨ state.loop.failing = true

structure Sound (state : State M) : Prop where
  lifecycle : state.fault = none → Lifecycle state
  permits_le : state.permits ≤ 1
  permits_eq : state.clientReset = false → state.permits = 1
  busy : state.fault ≠ some .idleAssertion
  healthy : state.clientReset = false → state.fault = none
  streaming : state.clientReset = false → Streaming state

theorem Sound.constructed : Sound (constructed : State M) := by
  refine ⟨fun _ => Lifecycle.constructed, ?_, ?_, ?_, ?_, ?_⟩ <;> rw [constructed_eq]
  · simp [State.permits, State.holders, State.operations, State.withStream, Loop.holds, Loop.handles]
  · simp [State.permits, State.holders, State.operations, State.withStream, Loop.holds, Loop.handles]
  · simp [State.withStream]
  · simp [State.withStream]
  · intro unset
    refine ⟨?_, ?_⟩
    · simp [State.withStream, Operation.stream]
    · simp [State.withStream]

theorem Step.unset {before after : State M} {action} (moves : Step before action after)
    (unset : after.clientReset = false) : before.clientReset = false := by
  cases moves with
  | senderOnce found once | loopOnce turn once => exact once.framed.clientReset ▸ unset
  | lateStart turn dead old => rcases old with rfl | rfl <;> exact unset
  | store => cases unset
  | _ => exact unset

theorem Lifecycle.not_shut {state : State M} (kept : Lifecycle state) (unset : state.clientReset = false) :
    state.queueShutdown ≠ true := by
  intro dead
  have set := kept.exited (kept.shut dead)
  rw [unset] at set
  cases set

theorem Lifecycle.live {state : State M} (kept : Lifecycle state) (unset : state.clientReset = false) :
    state.queueShutdown = false :=
  Bool.eq_false_iff.mpr (kept.not_shut unset)

theorem Lifecycle.running {state : State M} (kept : Lifecycle state) (unset : state.clientReset = false) :
    state.loop ≠ .finished := by
  intro finished
  exact kept.not_shut unset (kept.finished finished)

theorem Lifecycle.uncalled {state : State M} (kept : Lifecycle state) (unset : state.clientReset = false) :
    state.resetter = .outside ∨ state.resetter = .store := by
  by_contra called
  obtain ⟨inside, stored⟩ := not_or.mp called
  have set := kept.set inside stored
  rw [unset] at set
  cases set

theorem Lifecycle.streams {state : State M} (kept : Lifecycle state) (unset : state.clientReset = false) :
    ∃ stream, state.activeStream = some stream := by
  cases active : state.activeStream with
  | none => exact absurd (kept.stream active) (kept.running unset)
  | some stream => exact ⟨stream, rfl⟩

/-- Before the client is reset no assertion fails and no null stream is used. -/
private theorem OnceStep.healthy {before moved : State M} {position following}
    (once : OnceStep before position moved following) (healthy : before.fault = none)
    (kept : Lifecycle before) (unset : before.clientReset = false) : moved.fault = none := by
  obtain ⟨stream, streams⟩ := kept.streams unset
  have live := kept.live unset
  cases once with
  | absent active | null active => rw [streams] at active; cases active
  | late active dead => rw [live] at dead; cases dead
  | _ => exact healthy

/-- The flag is down whenever a callback asserts that it is, reset or not. -/
theorem Step.busy {before after : State M} {action} (moves : Step before action after)
    (kept : Sound before) (healthy : before.fault = none) : after.fault ≠ some .idleAssertion := by
  cases moves with
  | senderOnce found once | loopOnce turn once => cases once <;> simp [State.fail, healthy]
  | notBusy turn idle =>
    have sole := kept.permits_le
    simp only [State.permits, State.operations, turn, idle, Loop.handles, Bool.toNat_true] at sole
    omega
  | lateStart turn dead old => simp [State.fail]
  | restart => simp [State.withStream, healthy]
  | deliver => simp [State.reported, healthy]
  | _ => simp [healthy]

theorem Step.healthy {before after : State M} {action} (moves : Step before action after)
    (kept : Sound before) (healthy : before.fault = none) (unset : before.clientReset = false) :
    after.fault = none := by
  cases moves with
  | senderOnce found once | loopOnce turn once => exact once.healthy healthy (kept.lifecycle healthy) unset
  | notBusy turn idle => exact absurd rfl ((Step.notBusy turn idle).busy kept healthy)
  | lateStart turn dead old =>
    exact absurd dead ((kept.lifecycle healthy).not_shut unset)
  | _ => exact healthy

private theorem Streaming.frame {before after : State M} (kept : Streaming before)
    (activeStream : after.activeStream = before.activeStream) (outstanding : after.outstanding = before.outstanding)
    (started : after.started = before.started)
    (failing : before.loop.failing = true → after.loop.failing = true) : Streaming after := by
  refine ⟨by simpa only [activeStream, outstanding] using kept.active, ?_⟩
  intro stream active
  rw [started, outstanding]
  rcases kept.ready stream (activeStream ▸ active) with ready | starting | failed
  · exact .inl ready
  · exact .inr (.inl starting)
  · exact .inr (.inr (failing failed))

private theorem OnceStep.outstanding {before moved : State M} {position following}
    (once : OnceStep before position moved following) :
    moved.outstanding = before.outstanding ∨ ∃ stream message, before.activeStream = some stream ∧
      moved.outstanding = before.outstanding ++ [.write stream message] := by
  cases once with
  | write active live => exact .inr ⟨_, _, active, rfl⟩
  | _ => exact .inl rfl

private theorem Streaming.once {before moved after : State M} {position following} (kept : Streaming before)
    (once : OnceStep before position moved following) (activeStream : after.activeStream = moved.activeStream)
    (outstanding : after.outstanding = moved.outstanding) (started : after.started = moved.started)
    (failing : before.loop.failing = true → after.loop.failing = true) : Streaming after := by
  rcases once.outstanding with same | ⟨stream, message, active, added⟩
  · exact kept.frame (activeStream.trans once.framed.activeStream) (outstanding.trans same)
      (started.trans once.framed.started) failing
  · refine ⟨?_, ?_⟩ <;> rw [activeStream, outstanding, added, once.framed.activeStream]
    · intro operation member
      rcases List.mem_append.mp member with old | new
      · exact kept.active operation old
      · rw [List.mem_singleton.mp new]
        exact active
    · intro other current
      rw [started, once.framed.started]
      rcases kept.ready other current with ready | starting | failed
      · exact .inl ready
      · exact .inr (.inl (List.mem_append_left _ starting))
      · exact .inr (.inr (failing failed))

/-- One permit means at most one operation, outstanding or being handled. -/
theorem outstanding_nil {state : State M} (sole : state.permits ≤ 1) (handling : state.loop.handles = 1) :
    state.outstanding = [] := by
  apply List.eq_nil_of_length_eq_zero
  simp only [State.permits, State.operations] at sole
  omega

theorem outstanding_one {state : State M} (sole : state.permits ≤ 1) {index : Nat} {operation : Operation M}
    (found : state.outstanding[index]? = some operation) :
    state.outstanding = [operation] ∧ state.outstanding.eraseIdx index = [] := by
  have inside := (List.getElem?_eq_some_iff.mp found).1
  simp only [State.permits, State.operations] at sole
  obtain ⟨only, same⟩ := List.length_eq_one_iff.mp (show state.outstanding.length = 1 by omega)
  rw [same] at found inside ⊢
  obtain rfl : index = 0 := by simpa using inside
  simp only [List.getElem?_cons_zero, Option.some.injEq] at found
  exact ⟨by rw [found], rfl⟩

/-- The report of a StartCall with ok is what makes the stream ready. -/
private theorem Streaming.deliver {before : State M} (kept : Streaming before) (sole : before.permits ≤ 1)
    {index : Nat} {operation : Operation M} {ok : Bool} (waiting : before.loop = .next)
    (found : before.outstanding[index]? = some operation) : Streaming (before.reported index operation ok) := by
  obtain ⟨only, empty⟩ := outstanding_one sole found
  refine ⟨by simp [State.reported, empty], ?_⟩
  intro stream active
  have current : operation.stream = stream :=
    Option.some.inj ((kept.active operation (List.mem_of_getElem? found)).symm.trans active)
  have before_ready := kept.ready stream active
  simp only [only, waiting, Loop.failing, List.mem_singleton, Bool.false_eq_true, or_false] at before_ready
  cases operation with
  | startCall reported =>
    cases ok with
    | true =>
      left
      simp [State.reported, show reported = stream from current]
    | false => exact .inr (.inr rfl)
  | write reported message =>
    rcases before_ready with ready | starting
    · exact .inl ready
    · cases starting

private theorem Step.streaming {before after : State M} {action} (moves : Step before action after)
    (kept : Sound before) (healthy : before.fault = none) (unset : before.clientReset = false) :
    Streaming after := by
  have streaming := kept.streaming unset
  cases moves with
  | senderOnce found once => exact streaming.once once rfl rfl rfl (by simp only [once.framed.loop, imp_self])
  | loopOnce turn once =>
    exact streaming.once once rfl rfl rfl (fun failing => by rw [turn] at failing; cases failing)
  | deliver waiting found => exact streaming.deliver kept.permits_le waiting found
  | checkReset turn set => rw [unset] at set; cases set
  | drain turn | sent turn | lost turn | checkOk turn | loopIdle turn =>
    exact streaming.frame rfl rfl rfl (fun failing => by rw [turn] at failing; cases failing)
  | checkFailed | isBusy => exact streaming.frame rfl rfl rfl (fun _ => rfl)
  | restart turn live =>
    have empty := outstanding_nil kept.permits_le (by rw [turn]; rfl)
    refine ⟨?_, ?_⟩
    · simp [State.withStream, empty, Operation.stream]
    · intro stream active
      right; left
      simpa [State.withStream, empty] using active.symm
  | lateStart turn dead old =>
    exact absurd dead ((kept.lifecycle healthy).not_shut unset)
  | resetStream turn =>
    have early := (kept.lifecycle healthy).uncalled unset
    simp [turn] at early
  | _ => exact streaming.frame rfl rfl rfl id

theorem Sound.step {before after : State M} {action} (kept : Sound before)
    (executed : step before action = some after) : Sound after := by
  obtain ⟨healthy, moves⟩ := step_cases executed
  have lifecycle := kept.lifecycle healthy
  refine ⟨fun sound => lifecycle.step sound moves, ?_, ?_, ?_, ?_, ?_⟩
  · rcases moves.permits kept.permits_le with same | ⟨lost, _⟩
    · exact same ▸ kept.permits_le
    · omega
  · intro unset
    have unset := moves.unset unset
    rcases moves.permits kept.permits_le with same | ⟨_, set | dead⟩
    · exact same.trans (kept.permits_eq unset)
    · rw [unset] at set; cases set
    · exact absurd dead (lifecycle.not_shut unset)
  · exact moves.busy kept healthy
  · exact fun unset => moves.healthy kept healthy (moves.unset unset)
  · exact fun unset => moves.streaming kept healthy (moves.unset unset)

theorem Reaches.sound {state : State M} (reached : Reaches state) : Sound state :=
  Reachable.induct reached .constructed fun _ _ _ _ kept executed => kept.step executed

def State.Writing (state : State M) (message : M) : Prop :=
  .once (.write message) ∈ state.senders ∨ state.loop = .once (.write message)

/-- What a step may start: nothing, one Write on the active stream once that is
ready, or the StartCall of a stream that takes its place. -/
inductive Posts (before after : State M) : Prop where
  | nothing (outstanding : after.outstanding.Sublist before.outstanding) (written : after.written = before.written)
      (activeStream : after.activeStream = before.activeStream)
  | write {stream message} (free : before.outstanding = []) (active : before.activeStream = some stream)
      (ready : stream ∈ before.started) (posted : after.outstanding = [.write stream message])
      (written : after.written = before.written ++ [(stream, message)])
      (activeStream : after.activeStream = before.activeStream)
  | startCall (free : before.outstanding = []) (fresh : before.streams ∉ before.started)
      (posted : after.outstanding = [.startCall before.streams]) (written : after.written = before.written)
      (activeStream : after.activeStream = some before.streams)

/-- One stream operation at a time: the three homes of the permit, and what
they mean for what the next step starts, for the active stream and for the two
assertions. -/
structure State.Serial (state : State M) : Prop where
  permit :
    state.eventLoopIdle = true ∧ state.holders = 0 ∧ state.operations = 0 ∨
    state.eventLoopIdle = false ∧ state.holders = 1 ∧ state.operations = 0 ∨
    state.eventLoopIdle = false ∧ state.holders = 0 ∧ state.operations = 1
  write : ∀ message, state.Writing message → state.outstanding = [] ∧
    ∃ stream, state.activeStream = some stream ∧ stream ∈ state.started
  replace : state.loop = .startStream → state.outstanding = []
  current : ∀ operation ∈ state.outstanding, state.activeStream = some operation.stream
  posts : ∀ action after, step state action = some after → Posts state after
  busy : state.loop = .assertBusy → state.eventLoopIdle = false
  healthy : state.fault = none

/-- While a thread holds the permit, the active stream is there and ready. -/
private theorem Sound.ready {state : State M} (kept : Sound state) (unset : state.clientReset = false)
    (held : 0 < state.holders) :
    state.outstanding = [] ∧ ∃ stream, state.activeStream = some stream ∧ stream ∈ state.started := by
  have sole := kept.permits_le
  simp only [State.permits, State.operations] at sole
  have empty : state.outstanding = [] := List.eq_nil_of_length_eq_zero (by omega)
  obtain ⟨stream, active⟩ := (kept.lifecycle (kept.healthy unset)).streams unset
  refine ⟨empty, stream, active, ?_⟩
  rcases (kept.streaming unset).ready stream active with ready | starting | failing
  · exact ready
  · rw [empty] at starting; cases starting
  · -- A failing callback handles an operation, so it would have the permit.
    have handles : state.loop.handles = 1 := by
      cases turn : state.loop <;> rw [turn] at failing <;> first | rfl | cases failing
    omega

/-- A stream has its number from the count of those created before it. -/
private theorem Reaches.numbered {state : State M} (reached : Reaches state) :
    (∀ stream ∈ state.started, stream < state.streams) ∧
      ∀ stream, .startCall stream ∈ state.outstanding → stream < state.streams := by
  refine Reachable.induct reached ?_ ?_
  · rw [constructed_eq]
    simp [State.withStream]
  · intro before action after _ kept executed
    obtain ⟨started, starting⟩ := kept
    cases (step_cases executed).2 with
    | senderOnce found once | loopOnce turn once => cases once <;> simpa [State.fail] using ⟨started, starting⟩
    | @deliver index ok operation waiting found =>
      refine ⟨?_, fun stream member => starting stream (List.mem_of_mem_eraseIdx member)⟩
      intro stream member
      cases operation with
      | write => exact started stream member
      | startCall reported =>
        cases ok with
        | false => exact started stream member
        | true =>
          rcases List.mem_append.mp member with old | new
          · exact started stream old
          · exact List.mem_singleton.mp new ▸ starting reported (List.mem_of_getElem? found)
    | restart =>
      refine ⟨fun stream member => Nat.lt_succ_of_lt (started stream member), ?_⟩
      intro stream member
      rcases List.mem_append.mp member with old | new
      · exact Nat.lt_succ_of_lt (starting stream old)
      · cases List.mem_singleton.mp new
        exact Nat.lt_succ_self _
    | lateStart turn dead old => rcases old with rfl | rfl <;> exact ⟨started, starting⟩
    | _ => exact ⟨started, starting⟩

private theorem OnceStep.posts {before moved after : State M} {position following}
    (once : OnceStep before position moved following) (kept : Sound before) (unset : before.clientReset = false)
    (held : position.holds ≤ before.holders) (outstanding : after.outstanding = moved.outstanding)
    (written : after.written = moved.written) (activeStream : after.activeStream = moved.activeStream) :
    Posts before after := by
  have active := activeStream.trans once.framed.activeStream
  cases once with
  | write current live =>
    obtain ⟨free, stream, same, ready⟩ := kept.ready unset held
    obtain rfl := Option.some.inj (current.symm.trans same)
    exact .write free current ready (by rw [outstanding, free]; rfl) written active
  | _ => exact .nothing (outstanding ▸ List.Sublist.refl _) written active

private theorem Step.posts {before after : State M} {action} (moves : Step before action after) (reached : Reaches before)
    (unset : before.clientReset = false) : Posts before after := by
  have kept := reached.sound
  have lifecycle := kept.lifecycle (kept.healthy unset)
  cases moves with
  | senderOnce found once =>
    have held := (thread_le found).trans (Nat.le_add_right _ before.loop.holds)
    exact once.posts kept unset held rfl rfl rfl
  | loopOnce turn once =>
    refine once.posts kept unset ?_ rfl rfl rfl
    rw [State.holders, turn]
    exact Nat.le_add_left _ _
  | deliver waiting found => exact .nothing (List.eraseIdx_sublist _ _) rfl rfl
  | restart turn live =>
    have free := outstanding_nil kept.permits_le (by rw [turn]; rfl)
    have fresh : before.streams ∉ before.started := fun member => Nat.lt_irrefl _ (reached.numbered.1 _ member)
    exact .startCall free fresh (by rw [State.withStream, free]; rfl) rfl rfl
  | lateStart turn dead old => exact absurd dead (lifecycle.not_shut unset)
  | resetStream turn =>
    have early := lifecycle.uncalled unset
    simp [turn] at early
  | _ => exact .nothing (List.Sublist.refl _) rfl rfl

private theorem State.Writing.held {state : State M} {message : M} (writing : state.Writing message) :
    0 < state.holders := by
  unfold State.holders
  rcases writing with member | turn
  · have held : Sender.holds (.once (.write message)) ≤ Pool.total Sender.holds state.senders := Pool.weight_le member
    simp only [Sender.holds, Once.holds] at held
    omega
  · simp [turn, Loop.holds, Once.holds]

theorem stream_operations_serial {state : State M} (reached : Reaches state) (before : state.BeforeReset) :
    state.Serial := by
  have kept := reached.sound
  have one := kept.permits_eq before.unset
  simp only [State.permits] at one
  refine ⟨?_, ?_, ?_, ?_, ?_, ?_, kept.healthy before.unset⟩
  · cases idle : state.eventLoopIdle <;> simp only [idle, Bool.toNat_true, Bool.toNat_false] at one
    · rcases Nat.eq_zero_or_pos state.holders with none | held
      · exact .inr (.inr ⟨rfl, none, by omega⟩)
      · exact .inr (.inl ⟨rfl, by omega, by omega⟩)
    · exact .inl ⟨rfl, by omega, by omega⟩
  · exact fun message writing => kept.ready before.unset writing.held
  · exact fun turn => outstanding_nil kept.permits_le (by rw [turn]; rfl)
  · exact (kept.streaming before.unset).active
  · exact fun action after executed => (step_cases executed).2.posts reached before.unset
  · intro turn
    cases idle : state.eventLoopIdle with
    | false => rfl
    | true =>
      simp only [State.operations, idle, turn, Loop.handles, Bool.toNat_true] at one
      omega

/-- A sender pops its own message while the first stream becomes ready. -/
def writingRun : List (Action Nat) :=
  [.spawn, .call 0 7, .sender 0, .sender 0, .sender 0, .deliver 0 true, .loop, .loop, .sender 0, .sender 0, .sender 0]

theorem stream_operations_serial_writing :
    ∃ state : State Nat, exec step constructed writingRun = some state ∧ state.Writing 7 ∧ state.Serial :=
  ⟨_, rfl, .inl (by decide), stream_operations_serial ⟨writingRun, rfl⟩ ⟨rfl, rfl⟩⟩

end Cpp2Sky.AsyncClient
