import Cpp2Sky.AsyncClient

/-! Everything a step of the reporter can do, guards included. The invariants
are proved by cases on these rules and never unfold the step function. -/

namespace Cpp2Sky.AsyncClient
open Runs

variable {M : Type}

inductive OnceStep (before : State M) : Once M → State M → Option (Once M) → Prop where
  | claim (idle : before.eventLoopIdle = true) :
      OnceStep before .exchange { before with eventLoopIdle := false } (some .assertStream)
  | busy (idle : before.eventLoopIdle = false) : OnceStep before .exchange before none
  | present {stream} (active : before.activeStream = some stream) :
      OnceStep before .assertStream before (some .popFront)
  | absent (active : before.activeStream = none) :
      OnceStep before .assertStream (before.fail .streamAssertion) (some .assertStream)
  | empty (buffer : before.messageBuffer = []) : OnceStep before .popFront before (some .markIdle)
  | pop {message rest} (buffer : before.messageBuffer = message :: rest) :
      OnceStep before .popFront { before with messageBuffer := rest } (some (.write message))
  | markIdle : OnceStep before .markIdle { before with eventLoopIdle := true } none
  | write {message stream} (active : before.activeStream = some stream) (live : before.queueShutdown = false) :
      OnceStep before (.write message)
        { before with
          outstanding := before.outstanding ++ [.write stream message]
          written := before.written ++ [(stream, message)] } none
  | late {message stream} (active : before.activeStream = some stream) (dead : before.queueShutdown = true) :
      OnceStep before (.write message) (before.fail .workAfterShutdown) (some (.write message))
  | null {message} (active : before.activeStream = none) :
      OnceStep before (.write message) (before.fail .nullStream) (some (.write message))

theorem sendMessageOnce_step (before : State M) (position : Once M) :
    OnceStep before position (sendMessageOnce before position).1 (sendMessageOnce before position).2 := by
  cases position with
  | exchange =>
    simp only [sendMessageOnce]
    split
    next idle => exact .claim idle
    next idle => exact .busy (by simpa using idle)
  | assertStream =>
    simp only [sendMessageOnce]
    split
    next active => exact .absent active
    next stream active => exact .present active
  | popFront =>
    cases buffer : before.messageBuffer with
    | nil => simpa [sendMessageOnce, buffer, ValueBuffer.popFront] using OnceStep.empty buffer
    | cons message rest => simpa [sendMessageOnce, buffer, ValueBuffer.popFront] using OnceStep.pop buffer
  | markIdle => exact .markIdle
  | write message =>
    simp only [sendMessageOnce]
    split
    next active => exact .null active
    next stream active =>
      split
      next dead => exact .late active dead
      next live => exact .write active (by simpa using live)

/-- A stream started on a queue that still takes work. -/
def State.withStream (before : State M) : State M :=
  { before with
    outstanding := before.outstanding ++ [.startCall before.streams]
    activeStream := some before.streams
    streams := before.streams + 1 }

theorem startStream_live {before : State M} (live : before.queueShutdown = false) :
    startStream before = before.withStream := by
  cases active : before.activeStream <;> simp [startStream, resetStream, State.withStream, live, active]

theorem startStream_dead {before : State M} (dead : before.queueShutdown = true) :
    ∃ reset : State M, (reset = before ∨ reset = resetStream before) ∧
      startStream before = reset.fail .workAfterShutdown := by
  cases active : before.activeStream with
  | none => exact ⟨before, .inl rfl, by simp [startStream, active, dead]⟩
  | some stream =>
    refine ⟨resetStream before, .inr rfl, ?_⟩
    simp [startStream, resetStream, active, dead]

@[simp] theorem constructed_eq : (constructed : State M) = State.withStream {} := startStream_live rfl

/-- What `cq_.Next` leaves behind when it reports an operation. -/
def State.reported (before : State M) (index : Nat) (operation : Operation M) (ok : Bool) : State M :=
  { before with
    outstanding := before.outstanding.eraseIdx index
    loop := operation.callback ok
    started := match operation, ok with
      | .startCall stream, true => before.started ++ [stream]
      | _, _ => before.started }

inductive Step (before : State M) : Action M → State M → Prop where
  | spawn : Step before .spawn { before with senders := before.senders ++ [.outside] }
  | call {thread message} (found : before.senders[thread]? = some .outside) :
      Step before (.call thread message) { before with senders := before.senders.set thread (.total message) }
  | total {thread message} (found : before.senders[thread]? = some (.total message)) :
      Step before (.sender thread)
        { before with
          messagesTotal := before.messagesTotal + 1
          submitted := before.submitted ++ [message]
          senders := before.senders.set thread (.size message) }
  | full {thread message} (found : before.senders[thread]? = some (.size message))
      (pending : maxPendingMessagesSize < before.messageBuffer.length) :
      Step before (.sender thread) { before with senders := before.senders.set thread (.overflow message) }
  | room {thread message} (found : before.senders[thread]? = some (.size message))
      (pending : before.messageBuffer.length ≤ maxPendingMessagesSize) :
      Step before (.sender thread) { before with senders := before.senders.set thread (.push message) }
  | overflow {thread message} (found : before.senders[thread]? = some (.overflow message)) :
      Step before (.sender thread)
        { before with
          messagesDropped := before.messagesDropped + 1
          dropped := before.dropped ++ [message]
          senders := before.senders.set thread .outside }
  | push {thread message} (found : before.senders[thread]? = some (.push message)) :
      Step before (.sender thread)
        { before with
          messageBuffer := before.messageBuffer ++ [message]
          accepted := before.accepted ++ [message]
          senders := before.senders.set thread (.once .exchange) }
  | senderOnce {thread position moved following} (found : before.senders[thread]? = some (.once position))
      (once : OnceStep before position moved following) :
      Step before (.sender thread) { moved with senders := moved.senders.set thread (.after following) }
  | deliver {index ok operation} (waiting : before.loop = .next)
      (found : before.outstanding[index]? = some operation) :
      Step before (.deliver index ok) (before.reported index operation ok)
  | drain (waiting : before.loop = .next) (none : before.outstanding = []) (dead : before.queueShutdown = true) :
      Step before .drain { before with loop := .finished }
  | sent {message} (turn : before.loop = .count message true) :
      Step before .loop
        { before with
          messagesSent := before.messagesSent + 1
          sent := before.sent ++ [message]
          loop := .check true }
  | lost {message} (turn : before.loop = .count message false) :
      Step before .loop
        { before with
          messagesDropped := before.messagesDropped + 1
          dropped := before.dropped ++ [message]
          loop := .check false }
  | checkReset {ok} (turn : before.loop = .check ok) (set : before.clientReset = true) :
      Step before .loop { before with loop := .next }
  | checkOk (turn : before.loop = .check true) (unset : before.clientReset = false) :
      Step before .loop { before with loop := .markIdle }
  | checkFailed (turn : before.loop = .check false) (unset : before.clientReset = false) :
      Step before .loop { before with loop := .assertBusy }
  | loopIdle (turn : before.loop = .markIdle) :
      Step before .loop { before with eventLoopIdle := true, loop := .once .exchange }
  | loopOnce {position moved following} (turn : before.loop = .once position)
      (once : OnceStep before position moved following) :
      Step before .loop { moved with loop := .after following }
  | notBusy (turn : before.loop = .assertBusy) (idle : before.eventLoopIdle = true) :
      Step before .loop { before with fault := some .idleAssertion }
  | isBusy (turn : before.loop = .assertBusy) (idle : before.eventLoopIdle = false) :
      Step before .loop { before with loop := .startStream }
  | restart (turn : before.loop = .startStream) (live : before.queueShutdown = false) :
      Step before .loop { before.withStream with loop := .next }
  | lateStart {reset} (turn : before.loop = .startStream) (dead : before.queueShutdown = true)
      (old : reset = before ∨ reset = resetStream before) :
      Step before .loop { reset.fail .workAfterShutdown with loop := .next }
  | reset (uncalled : before.resetter = .outside) : Step before .reset { before with resetter := .store }
  | store (turn : before.resetter = .store) :
      Step before .resetter { before with clientReset := true, resetter := .clear }
  | clear (turn : before.resetter = .clear) :
      Step before .resetter { before with messageBuffer := [], resetter := .exit }
  | exitAgain (turn : before.resetter = .exit) (exited : before.exited = true) :
      Step before .resetter { before with resetter := .resetStream }
  | exit (turn : before.resetter = .exit) (exited : before.exited = false) :
      Step before .resetter { before with exited := true, resetter := .shutdown }
  | shutdown (turn : before.resetter = .shutdown) :
      Step before .resetter { before with queueShutdown := true, resetter := .join }
  | join (turn : before.resetter = .join) (finished : before.loop = .finished) :
      Step before .resetter { before with resetter := .resetStream }
  | resetStream (turn : before.resetter = .resetStream) :
      Step before .resetter { before with activeStream := none, resetter := .outside }

private theorem sender_step {before moved : State M} {thread : Nat} {position following : Sender M}
    (found : before.senders[thread]? = some position)
    (executed : sendMessage before position = some (moved, following)) :
    Step before (.sender thread) { moved with senders := moved.senders.set thread following } := by
  cases position with
  | outside => cases executed
  | total message => cases executed; exact .total found
  | size message =>
    by_cases pending : maxPendingMessagesSize < before.messageBuffer.length
    · simp only [sendMessage, ValueBuffer.size, pending, ite_true] at executed
      cases executed
      exact .full found pending
    · simp only [sendMessage, ValueBuffer.size, pending, ite_false] at executed
      cases executed
      exact .room found (Nat.le_of_not_lt pending)
  | overflow message => cases executed; exact .overflow found
  | push message => cases executed; exact .push found
  | once position =>
    cases executed
    exact .senderOnce found (sendMessageOnce_step before position)

private theorem callback_step {before moved : State M} {following : Loop M}
    (executed : callback before before.loop = some (moved, following)) :
    Step before .loop { moved with loop := following } := by
  cases turn : before.loop <;> rw [turn] at executed
  case next | finished => cases executed
  case count message ok =>
    cases ok with
    | true => cases executed; exact .sent turn
    | false => cases executed; exact .lost turn
  case check ok =>
    cases set : before.clientReset <;> simp only [callback, set, Bool.false_eq_true, ite_true, ite_false] at executed
    · cases ok with
      | true => cases executed; exact .checkOk turn set
      | false => cases executed; exact .checkFailed turn set
    · cases executed; exact .checkReset turn set
  case markIdle => cases executed; exact .loopIdle turn
  case once position => cases executed; exact .loopOnce turn (sendMessageOnce_step before position)
  case assertBusy =>
    cases idle : before.eventLoopIdle <;> simp only [callback, idle, Bool.false_eq_true, ite_true, ite_false] at executed
    · cases executed; exact .isBusy turn idle
    · cases executed
      simpa only [State.fail, turn] using Step.notBusy turn idle
  case startStream =>
    cases executed
    cases shut : before.queueShutdown with
    | false => simpa only [startStream_live shut] using Step.restart turn shut
    | true =>
      obtain ⟨reset, old, same⟩ := startStream_dead shut
      simpa only [same] using Step.lateStart turn shut old

private theorem resetClient_step {before moved : State M} {following : Resetter}
    (executed : resetClient before before.resetter = some (moved, following)) :
    Step before .resetter { moved with resetter := following } := by
  cases turn : before.resetter <;> rw [turn] at executed
  case outside => cases executed
  case store => cases executed; exact .store turn
  case clear => cases executed; exact .clear turn
  case exit =>
    cases exited : before.exited <;> simp only [resetClient, exited, Bool.false_eq_true, ite_true, ite_false] at executed
    · cases executed; exact .exit turn exited
    · cases executed; exact .exitAgain turn exited
  case shutdown => cases executed; exact .shutdown turn
  case join =>
    cases finished : before.loop <;> simp only [resetClient, finished] at executed
    all_goals cases executed
    exact .join turn finished
  case resetStream => cases executed; exact .resetStream turn

theorem step_cases {before after : State M} {action : Action M} (executed : step before action = some after) :
    before.fault = none ∧ Step before action after := by
  unfold step at executed
  split at executed
  next => cases executed
  next healthy =>
    refine ⟨by simpa using healthy, ?_⟩
    cases action with
    | spawn => cases executed; exact .spawn
    | call thread message =>
      simp only at executed
      split at executed
      next found => cases executed; exact .call found
      next => cases executed
    | sender thread =>
      obtain ⟨position, found, moves⟩ := Option.bind_eq_some_iff.mp executed
      obtain ⟨⟨moved, following⟩, sends, rfl⟩ := Option.map_eq_some_iff.mp moves
      exact sender_step found sends
    | deliver index ok =>
      simp only at executed
      split at executed
      next operation waiting found => cases executed; exact .deliver waiting found
      next => cases executed
    | drain =>
      simp only at executed
      split at executed
      next waiting none =>
        split at executed
        next dead => cases executed; exact .drain waiting none dead
        next => cases executed
      next => cases executed
    | loop =>
      obtain ⟨⟨moved, following⟩, runs, rfl⟩ := Option.map_eq_some_iff.mp executed
      exact callback_step runs
    | reset =>
      simp only at executed
      split at executed
      next uncalled => cases executed; exact .reset uncalled
      next => cases executed
    | resetter =>
      obtain ⟨⟨moved, following⟩, resets, rfl⟩ := Option.map_eq_some_iff.mp executed
      exact resetClient_step resets

end Cpp2Sky.AsyncClient
