import Cpp2Sky.Library.Runs

/-! The reporter of source/grpc_async_client_impl with its threads. Each access
to an atomic variable, each locked buffer operation, each assertion and each
StartCall, Write and Shutdown is one step of the thread that makes it. -/

namespace Cpp2Sky.AsyncClient
open Runs

def maxPendingMessagesSize : Nat := 1024

/-- `ValueBuffer` of source/utils/buffer.h: the deque behind the mutex. -/
abbrev ValueBuffer (M : Type) := List M

namespace ValueBuffer
variable {M : Type}

def popFront : ValueBuffer M → Option M × ValueBuffer M
  | [] => (none, [])
  | message :: rest => (some message, rest)

def pushBack (buffer : ValueBuffer M) (message : M) : ValueBuffer M := buffer ++ [message]

def size (buffer : ValueBuffer M) : Nat := buffer.length

def clear (_ : ValueBuffer M) : ValueBuffer M := []

end ValueBuffer

/-- An operation started on the completion queue, with the stream it is for.
A StartCall is reported under `basic_event_tag_`, a Write under `write_event_tag_`. -/
inductive Operation (M : Type) where
  | startCall (stream : Nat)
  | write (stream : Nat) (message : M)
  deriving DecidableEq

/-- The next step of a thread inside `sendMessageOnce`. -/
inductive Once (M : Type) where
  | exchange
  | assertStream
  | popFront
  | markIdle
  | write (message : M)
  deriving DecidableEq

/-- The next step of an application thread, with the message it sends. -/
inductive Sender (M : Type) where
  | outside
  | total (message : M)
  | size (message : M)
  | overflow (message : M)
  | push (message : M)
  | once (position : Once M)
  deriving DecidableEq

/-- The next step of the event loop thread. `next` waits in `cq_.Next`. -/
inductive Loop (M : Type) where
  | next
  | count (message : M) (ok : Bool)
  | check (ok : Bool)
  | markIdle
  | once (position : Once M)
  | assertBusy
  | startStream
  | finished
  deriving DecidableEq

/-- The next step of the thread that calls `resetClient`. -/
inductive Resetter where
  | outside
  | store
  | clear
  | exit
  | shutdown
  | join
  | resetStream
  deriving DecidableEq

/-- What stops the program: an assertion, a null stream, or work enqueued on a
completion queue that was shut down. -/
inductive Fault where
  | streamAssertion
  | idleAssertion
  | nullStream
  | workAfterShutdown
  deriving DecidableEq

/-- The members of `TraceAsyncClientImpl` and its event loop, the position of
every thread, and in the last six fields what the run did so far. -/
structure State (M : Type) where
  messagesTotal : UInt64 := 0
  messagesDropped : UInt64 := 0
  messagesSent : UInt64 := 0
  clientReset : Bool := false
  messageBuffer : ValueBuffer M := []
  eventLoopIdle : Bool := false
  activeStream : Option Nat := none
  exited : Bool := false
  queueShutdown : Bool := false
  outstanding : List (Operation M) := []
  streams : Nat := 0
  senders : List (Sender M) := []
  loop : Loop M := .next
  resetter : Resetter := .outside
  fault : Option Fault := none
  submitted : List M := []
  accepted : List M := []
  written : List (Nat × M) := []
  sent : List M := []
  dropped : List M := []
  started : List Nat := []
  deriving DecidableEq

variable {M : Type}

def State.fail (state : State M) (fault : Fault) : State M := { state with fault := some fault }

def resetStream (state : State M) : State M := { state with activeStream := none }

/-- `startStream`: StartCall is posted by the constructor of the new stream. -/
def startStream (state : State M) : State M :=
  let state := if state.activeStream.isSome then resetStream state else state
  if state.queueShutdown then state.fail .workAfterShutdown
  else { state with
    outstanding := state.outstanding ++ [.startCall state.streams]
    activeStream := some state.streams
    streams := state.streams + 1 }

/-- The constructor. Its `startStream` is one step, taken before the event loop
thread runs its first callback. -/
def constructed : State M := startStream {}

/-- One step of `sendMessageOnce`, with the next one unless it returned. -/
def sendMessageOnce (state : State M) : Once M → State M × Option (Once M)
  | .exchange =>
    if state.eventLoopIdle then ({ state with eventLoopIdle := false }, some .assertStream)
    else (state, none)
  | .assertStream =>
    match state.activeStream with
    | none => (state.fail .streamAssertion, some .assertStream)
    | some _ => (state, some .popFront)
  | .popFront =>
    match state.messageBuffer.popFront with
    | (none, _) => (state, some .markIdle)
    | (some message, rest) => ({ state with messageBuffer := rest }, some (.write message))
  | .markIdle => ({ state with eventLoopIdle := true }, none)
  | .write message =>
    match state.activeStream with
    | none => (state.fail .nullStream, some (.write message))
    | some stream =>
      if state.queueShutdown then (state.fail .workAfterShutdown, some (.write message))
      else ({ state with
        outstanding := state.outstanding ++ [.write stream message]
        written := state.written ++ [(stream, message)] }, none)

def Sender.after : Option (Once M) → Sender M
  | none => .outside
  | some position => .once position

def Loop.after : Option (Once M) → Loop M
  | none => .next
  | some position => .once position

def sendMessage (state : State M) : Sender M → Option (State M × Sender M)
  | .outside => none
  | .total message =>
    some ({ state with
      messagesTotal := state.messagesTotal + 1
      submitted := state.submitted ++ [message] }, .size message)
  | .size message =>
    some (state, if maxPendingMessagesSize < state.messageBuffer.size then .overflow message else .push message)
  | .overflow message =>
    some ({ state with
      messagesDropped := state.messagesDropped + 1
      dropped := state.dropped ++ [message] }, .outside)
  | .push message =>
    some ({ state with
      messageBuffer := state.messageBuffer.pushBack message
      accepted := state.accepted ++ [message] }, .once .exchange)
  | .once position =>
    let (moved, following) := sendMessageOnce state position
    some (moved, .after following)

def Operation.callback : Operation M → Bool → Loop M
  | .startCall _, ok => .check ok
  | .write _ message, ok => .count message ok

/-- One step of the tag callbacks. `write_event_tag_` counts the message and
goes on as `basic_event_tag_`. -/
def callback (state : State M) : Loop M → Option (State M × Loop M)
  | .next => none
  | .count message true =>
    some ({ state with
      messagesSent := state.messagesSent + 1
      sent := state.sent ++ [message] }, .check true)
  | .count message false =>
    some ({ state with
      messagesDropped := state.messagesDropped + 1
      dropped := state.dropped ++ [message] }, .check false)
  | .check ok =>
    some (state, if state.clientReset then .next else if ok then .markIdle else .assertBusy)
  | .markIdle => some ({ state with eventLoopIdle := true }, .once .exchange)
  | .once position =>
    let (moved, following) := sendMessageOnce state position
    some (moved, .after following)
  | .assertBusy =>
    if state.eventLoopIdle then some (state.fail .idleAssertion, .assertBusy)
    else some (state, .startStream)
  | .startStream => some (startStream state, .next)
  | .finished => none

/-- One step of `resetClient`, `EventLoopThread::exit` included. The join ends
when the event loop thread has left `gogo`. -/
def resetClient (state : State M) : Resetter → Option (State M × Resetter)
  | .outside => none
  | .store => some ({ state with clientReset := true }, .clear)
  | .clear => some ({ state with messageBuffer := state.messageBuffer.clear }, .exit)
  | .exit =>
    if state.exited then some (state, .resetStream)
    else some ({ state with exited := true }, .shutdown)
  | .shutdown => some ({ state with queueShutdown := true }, .join)
  | .join =>
    match state.loop with
    | .finished => some (state, .resetStream)
    | _ => none
  | .resetStream => some (resetStream state, .outside)

inductive Action (M : Type) where
  | spawn
  | call (thread : Nat) (message : M)
  | sender (thread : Nat)
  /-- `cq_.Next` reports one of the outstanding operations. -/
  | deliver (index : Nat) (ok : Bool)
  /-- `cq_.Next` reports that the queue is shut down and fully drained. -/
  | drain
  | loop
  | reset
  | resetter
  deriving DecidableEq

/-- One step of the whole program; nothing moves after a fault. -/
def step (state : State M) (action : Action M) : Option (State M) :=
  if state.fault.isSome then none
  else match action with
    | .spawn => some { state with senders := state.senders ++ [.outside] }
    | .call thread message =>
      match state.senders[thread]? with
      | some .outside => some { state with senders := state.senders.set thread (.total message) }
      | _ => none
    | .sender thread =>
      (state.senders[thread]?).bind fun position =>
        (sendMessage state position).map fun (moved, following) =>
          { moved with senders := moved.senders.set thread following }
    | .deliver index ok =>
      match state.loop, state.outstanding[index]? with
      | .next, some operation =>
        some { state with
          outstanding := state.outstanding.eraseIdx index
          loop := operation.callback ok
          started := match operation, ok with
            | .startCall stream, true => state.started ++ [stream]
            | _, _ => state.started }
      | _, _ => none
    | .drain =>
      match state.loop, state.outstanding with
      | .next, [] => if state.queueShutdown then some { state with loop := .finished } else none
      | _, _ => none
    | .loop => (callback state state.loop).map fun (moved, following) => { moved with loop := following }
    | .reset =>
      match state.resetter with
      | .outside => some { state with resetter := .store }
      | _ => none
    | .resetter => (resetClient state state.resetter).map fun (moved, following) => { moved with resetter := following }

/-- The states that some interleaving of the threads reaches. -/
def Reaches (state : State M) : Prop := Reachable step constructed state

structure State.BeforeReset (state : State M) : Prop where
  uncalled : state.resetter = .outside
  unset : state.clientReset = false

structure State.Quiet (state : State M) : Prop where
  senders : ∀ sender ∈ state.senders, sender = .outside
  loop : state.loop = .next

/-- Waiting for the next event, or left for good. -/
def Loop.resting : Loop M → Bool
  | .next | .finished => true
  | _ => false

structure State.Between (state : State M) : Prop where
  senders : ∀ sender ∈ state.senders, sender = .outside
  loop : state.loop.resting = true

end Cpp2Sky.AsyncClient
