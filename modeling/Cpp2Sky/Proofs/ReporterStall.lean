import Cpp2Sky.Proofs.ReporterAccounts
import Cpp2Sky.Proofs.ReporterCapacity
import Cpp2Sky.Proofs.ReporterProgress
import Cpp2Sky.Proofs.ReporterWakeup

/-! What becomes of messages that were left in the buffer with nothing scheduled
to send them. The next call sends them, unless they are more than a call looks
at: then it drops its own message, and so does every later one. -/

namespace Cpp2Sky.AsyncClient
open Runs

variable {M : Type}

/-- No thread is inside a call, nothing is outstanding, and the buffer is over
the limit. -/
structure State.Jammed (state : State M) : Prop where
  before : state.BeforeReset
  quiet : state.Quiet
  outstanding : state.outstanding = []
  full : maxPendingMessagesSize < state.messageBuffer.length

/-- The positions of a call before its message is stored. -/
def Sender.outdoors : Sender M → Prop
  | .outside | .total _ | .size _ | .overflow _ => True
  | .push _ | .once _ => False

/-- Calls come and go, and what was there when they began stays as it was. -/
structure State.Barred (start state : State M) : Prop where
  senders : ∀ sender ∈ state.senders, sender.outdoors
  loop : state.loop = .next
  outstanding : state.outstanding = []
  uncalled : state.resetter = .outside
  unset : state.clientReset = false
  live : state.queueShutdown = false
  messageBuffer : state.messageBuffer = start.messageBuffer
  accepted : state.accepted = start.accepted
  written : state.written = start.written
  sent : state.sent = start.sent

private theorem outdoors_set {senders : List (Sender M)} {thread : Nat} {sender : Sender M}
    (every : ∀ sender ∈ senders, sender.outdoors) (away : sender.outdoors) :
    ∀ other ∈ senders.set thread sender, other.outdoors := by
  intro other member
  rcases List.mem_or_eq_of_mem_set member with old | rfl
  · exact every other old
  · exact away

private theorem State.Barred.step {start before after : State M} {action} (barred : State.Barred start before)
    (full : maxPendingMessagesSize < start.messageBuffer.length) (moves : Step before action after)
    (stays : action ≠ .reset) : State.Barred start after := by
  have away {thread : Nat} {sender : Sender M} (found : before.senders[thread]? = some sender) : sender.outdoors :=
    barred.senders sender (List.mem_of_getElem? found)
  cases moves with
  | spawn =>
    refine { barred with senders := ?_ }
    intro sender member
    rcases List.mem_append.mp member with old | new
    · exact barred.senders sender old
    · rw [List.mem_singleton.mp new]
      exact True.intro
  | call | total | full | overflow => exact { barred with senders := outdoors_set barred.senders True.intro }
  | room found pending =>
    rw [barred.messageBuffer] at pending
    omega
  | push found => exact (away found).elim
  | senderOnce found => exact (away found).elim
  | deliver waiting found =>
    rw [barred.outstanding] at found
    cases found
  | drain waiting empty dead =>
    rw [barred.live] at dead
    cases dead
  | sent turn | lost turn | checkReset turn | checkOk turn | checkFailed turn | loopIdle turn | loopOnce turn
  | notBusy turn | isBusy turn | restart turn | lateStart turn =>
    rw [barred.loop] at turn
    cases turn
  | reset => exact absurd rfl stays
  | store turn | clear turn | exitAgain turn | exit turn | shutdown turn | join turn | resetStream turn =>
    rw [barred.uncalled] at turn
    cases turn

private theorem State.Jammed.barred {start : State M} (reached : Reaches start) (jammed : start.Jammed) :
    State.Barred start start := by
  have healthy := reached.sound.healthy jammed.before.unset
  refine ⟨?_, jammed.quiet.loop, jammed.outstanding, jammed.before.uncalled, jammed.before.unset,
    (reached.sound.lifecycle healthy).live jammed.before.unset, rfl, rfl, rfl, rfl⟩
  intro sender member
  rw [jammed.quiet.senders sender member]
  exact True.intro

/-- Whatever calls are made, a jammed reporter never writes again. It drops each
message that it is given. -/
theorem jam_lasts {start state : State M} {actions : List (Action M)} (reached : Reaches start)
    (jammed : start.Jammed) (executed : exec step start actions = some state) (stays : .reset ∉ actions) :
    state.messageBuffer = start.messageBuffer ∧ state.accepted = start.accepted ∧ state.written = start.written ∧
      state.sent = start.sent ∧
      (state.Quiet → (start.dropped : Multiset M) + state.submitted = state.dropped + start.submitted) := by
  have barred : State.Barred start state := by
    have along : Along step (fun _ action => action ≠ .reset) start actions :=
      Along.of_actions start fun action member same => stays (same ▸ member)
    refine invariant (fun before action after kept stays executed => ?_) (jammed.barred reached) along executed
    exact kept.step jammed.full (step_cases executed).2 stays
  refine ⟨barred.messageBuffer, barred.accepted, barred.written, barred.sent, ?_⟩
  intro quiet
  have first := reached.everywhere jammed.before.unset
  have reaches : Reaches state := reached.trans ⟨actions, executed⟩
  have last := reaches.everywhere barred.unset
  rw [quiet.carried, add_zero] at last
  rw [jammed.quiet.carried, add_zero] at first
  simp only [State.placed, State.inflight, barred.messageBuffer, barred.sent, barred.outstanding] at last
  simp only [State.placed, State.inflight, jammed.outstanding] at first
  rw [first, last]
  abel

/-- A call that finds too many messages waiting counts its own as dropped. -/
private theorem call_drops {state : State M} (message : M) (healthy : state.fault = none)
    (alone : state.senders = [.outside]) (full : maxPendingMessagesSize < state.messageBuffer.length) :
    exec step state [.call 0 message, .sender 0, .sender 0, .sender 0] = some { state with
      messagesTotal := state.messagesTotal + 1
      submitted := state.submitted ++ [message]
      messagesDropped := state.messagesDropped + 1
      dropped := state.dropped ++ [message] } := by
  simp [exec, step, healthy, alone, sendMessage, ValueBuffer.size, full]

private theorem thread_zero {state : State M} {sender : Sender M} (alone : state.senders = [sender]) :
    state.senders[0]? = some sender := by
  rw [alone]
  rfl

/-- The event loop found the buffer empty and is about to raise the flag, when
one thread calls again and again. -/
private theorem crowded (message : M) (count : Nat) (room : count ≤ maxPendingMessagesSize + 1) :
    ∃ state : State M, Reaches state ∧ state.senders = [.outside] ∧ state.loop = .once .markIdle ∧
      state.eventLoopIdle = false ∧ state.outstanding = [] ∧ state.BeforeReset ∧ state.messageBuffer.length = count := by
  induction count with
  | zero =>
    exact ⟨_, ⟨[.spawn, .deliver 0 true, .loop, .loop, .loop, .loop, .loop], rfl⟩, rfl, rfl, rfl, rfl, ⟨rfl, rfl⟩, rfl⟩
  | succ count ih =>
    obtain ⟨state, reached, alone, turn, busy, none, before, length⟩ := ih (by omega)
    have stored := call_stores message (reached.sound.healthy before.unset) (thread_zero alone) busy (by omega)
    refine ⟨_, reached.trans ⟨_, stored⟩, alone, turn, busy, none, ⟨before.uncalled, before.unset⟩, ?_⟩
    rw [List.length_append, length]
    rfl

theorem jam_reached (message : M) : ∃ state : State M, Reaches state ∧ state.Jammed ∧ state.senders = [.outside] := by
  obtain ⟨state, reached, alone, turn, _, none, before, length⟩ := crowded message (maxPendingMessagesSize + 1) (Nat.le_refl _)
  have healthy := reached.sound.healthy before.unset
  have marked : step state .loop = some { state with eventLoopIdle := true, loop := .next } := by
    simp [step, healthy, turn, callback, sendMessageOnce, Loop.after]
  refine ⟨_, reached.next marked, ?_, alone⟩
  exact ⟨⟨before.uncalled, before.unset⟩, ⟨by simp [alone], rfl⟩, none, by simp [length]⟩

theorem jam_lasts_reached : ∃ start state : State Nat, Reaches start ∧ start.Jammed ∧
    exec step start [.call 0 9, .sender 0, .sender 0, .sender 0] = some state ∧ state.written = start.written := by
  obtain ⟨start, reached, jammed, alone⟩ := jam_reached 7
  have executed := call_drops 9 (reached.sound.healthy jammed.before.unset) alone jammed.full
  exact ⟨start, _, reached, jammed, executed, (jam_lasts reached jammed executed (by simp)).2.2.1⟩

/-! With room in the buffer one call is enough. -/

/-- The event loop waits and no operation is there to wake it. -/
def State.Still (state : State M) (idle : Bool) : Prop :=
  state.eventLoopIdle = idle ∧ state.loop = .next ∧ state.outstanding = []

/-- How far the only call has come. Once it returned, the event loop raises the
flag for good only when it finds the buffer empty. -/
def State.Attended (state : State M) : Sender M → Prop
  | .total _ | .size _ => state.Still true ∧ state.messageBuffer.length ≤ maxPendingMessagesSize
  | .push _ => state.Still true
  | .once .exchange => state.Still true ∧ state.messageBuffer ≠ []
  | .once .assertStream | .once .popFront => state.Still false ∧ state.messageBuffer ≠ []
  | .once (.write _) => state.Still false
  | .overflow _ | .once .markIdle => False
  | .outside => (state.loop = .once .markIdle → state.messageBuffer = []) ∧
      (state.eventLoopIdle = true → state.messageBuffer = [] ∨ state.loop = .once .exchange)

/-- The message of a call that has not stored it yet. -/
def Sender.brings : Sender M → List M
  | .total message | .size message | .push message => [message]
  | .outside | .overflow _ | .once _ => []

/-- One call is running, or has returned, since every message in `accepted` was stored. -/
structure State.Sole (caller : Nat) (accepted : List M) (state : State M) (sender : Sender M) : Prop where
  found : state.senders[caller]? = some sender
  others : ∀ thread other, state.senders[thread]? = some other → thread = caller ∨ other = .outside
  uncalled : state.resetter = .outside
  unset : state.clientReset = false
  live : state.queueShutdown = false
  attended : state.Attended sender
  accepted : state.accepted ++ sender.brings = accepted

/-- The actions that begin no other call. -/
def Action.callless : Action M → Prop
  | .call _ _ | .reset => False
  | .spawn | .sender _ | .deliver _ _ | .drain | .loop | .resetter => True

/-- Only a call that has returned leaves the event loop something to do. -/
private theorem State.Attended.returned {state : State M} {sender : Sender M} (attended : state.Attended sender)
    (busy : state.loop ≠ .next ∨ state.outstanding ≠ []) : sender = .outside := by
  have never {idle : Bool} (still : state.Still idle) : False := by
    rcases busy with awake | some
    · exact awake still.2.1
    · exact some still.2.2
  cases sender with
  | outside => rfl
  | total | size => exact (never attended.1).elim
  | push => exact (never attended).elim
  | overflow => exact attended.elim
  | once position =>
    cases position with
    | exchange | assertStream | popFront => exact (never attended.1).elim
    | write => exact (never attended).elim
    | markIdle => exact attended.elim

/-- The steps of a callback outside `sendMessageOnce` leave buffer and flag alone. -/
private theorem State.Attended.kept {before after : State M} (attended : before.Attended .outside)
    (calm : before.loop ≠ .once .exchange) (buffer : after.messageBuffer = before.messageBuffer)
    (idle : after.eventLoopIdle = before.eventLoopIdle) (loop : after.loop ≠ .once .markIdle) :
    after.Attended .outside := by
  refine ⟨fun turn => absurd turn loop, fun up => .inl ?_⟩
  rw [buffer]
  rcases attended.2 (idle ▸ up) with none | trying
  · exact none
  · exact absurd trying calm

private theorem sole_set {senders : List (Sender M)} {caller : Nat} {old : Sender M} (found : senders[caller]? = some old)
    (others : ∀ thread other, senders[thread]? = some other → thread = caller ∨ other = .outside) (new : Sender M) :
    (senders.set caller new)[caller]? = some new ∧
      ∀ thread other, (senders.set caller new)[thread]? = some other → thread = caller ∨ other = .outside := by
  have inside := (List.getElem?_eq_some_iff.mp found).1
  refine ⟨List.getElem?_set_self inside, ?_⟩
  intro thread other present
  by_cases same : thread = caller
  · exact .inl same
  · rw [List.getElem?_set_ne (Ne.symm same)] at present
    exact others thread other present

/-- The caller's own steps inside `sendMessageOnce`: it finds its message or an
older one, and hands that to Write. -/
private theorem OnceStep.attended {before moved : State M} {position following}
    (once : OnceStep before position moved following) (attended : before.Attended (.once position)) :
    moved.Attended (.after following) := by
  cases once with
  | claim => exact ⟨⟨rfl, attended.1.2⟩, attended.2⟩
  | busy idle =>
    rw [attended.1.1] at idle
    cases idle
  | present | absent => exact attended
  | empty buffer => exact absurd buffer attended.2
  | pop => exact attended.1
  | markIdle => exact attended.elim
  | write =>
    obtain ⟨down, waiting, _⟩ := attended
    exact ⟨fun turn => absurd (waiting.symm.trans turn) nofun, fun idle => absurd (down.symm.trans idle) nofun⟩
  | late | null => exact attended

/-- The event loop's steps inside it, after the caller has returned. -/
private theorem OnceStep.empties {before moved after : State M} {position following}
    (once : OnceStep before position moved following) (turn : before.loop = .once position)
    (attended : before.Attended .outside) (buffer : after.messageBuffer = moved.messageBuffer)
    (idle : after.eventLoopIdle = moved.eventLoopIdle) (loop : after.loop = .after following) :
    after.Attended .outside := by
  obtain ⟨marking, raised⟩ := attended
  simp only [State.Attended, buffer, idle, loop]
  rw [turn] at marking raised
  cases once with
  | claim => simp [Loop.after]
  | busy down => simp [Loop.after, down]
  | present | write => simpa [Loop.after] using raised
  | absent | late | null => simpa [Loop.after, State.fail] using raised
  | empty none => simp [none]
  | pop some =>
    -- With a message there the flag is down, and it stays down through the Write.
    refine ⟨by simp [Loop.after], fun up => ?_⟩
    rcases raised up with none | trying
    · rw [some] at none
      cases none
    · cases trying
  | markIdle => simp [marking rfl]

private theorem State.Sole.step {caller : Nat} {accepted : List M} {before after : State M} {sender : Sender M} {action}
    (sole : State.Sole caller accepted before sender) (moves : Step before action after) (callless : action.callless) :
    ∃ following, State.Sole caller accepted after following := by
  have own {thread : Nat} {other : Sender M} (found : before.senders[thread]? = some other) (inside : other ≠ .outside) :
      thread = caller ∧ other = sender := by
    rcases sole.others thread other found with rfl | outside
    · exact ⟨rfl, Option.some.inj (found.symm.trans sole.found)⟩
    · exact absurd outside inside
  cases moves with
  | spawn =>
    have inside := (List.getElem?_eq_some_iff.mp sole.found).1
    refine ⟨sender, { sole with found := (List.getElem?_append_left inside).trans sole.found, others := ?_ }⟩
    intro thread other present
    rcases Nat.lt_or_ge thread before.senders.length with old | new
    · rw [List.getElem?_append_left old] at present
      exact sole.others thread other present
    · rw [List.getElem?_append_right new] at present
      exact .inr (List.mem_singleton.mp (List.mem_of_getElem? present))
  | call | reset => exact callless.elim
  | @total thread message found =>
    obtain ⟨rfl, rfl⟩ := own found nofun
    obtain ⟨set, others⟩ := sole_set found sole.others (.size message)
    exact ⟨.size message, set, others, sole.uncalled, sole.unset, sole.live, sole.attended, sole.accepted⟩
  | full found pending =>
    obtain ⟨rfl, rfl⟩ := own found nofun
    exact absurd pending (Nat.not_lt.mpr sole.attended.2)
  | @room thread message found pending =>
    obtain ⟨rfl, rfl⟩ := own found nofun
    obtain ⟨set, others⟩ := sole_set found sole.others (.push message)
    exact ⟨.push message, set, others, sole.uncalled, sole.unset, sole.live, sole.attended.1, sole.accepted⟩
  | overflow found =>
    obtain ⟨rfl, rfl⟩ := own found nofun
    exact sole.attended.elim
  | @push thread message found =>
    obtain ⟨rfl, rfl⟩ := own found nofun
    obtain ⟨set, others⟩ := sole_set found sole.others (.once .exchange)
    refine ⟨.once .exchange, set, others, sole.uncalled, sole.unset, sole.live, ⟨sole.attended, by simp⟩, ?_⟩
    exact (List.append_nil _).trans sole.accepted
  | @senderOnce thread position moved following found once =>
    obtain ⟨rfl, rfl⟩ := own found nofun
    obtain ⟨set, others⟩ := sole_set found sole.others (.after following)
    have attended := once.attended sole.attended
    have brings : (Sender.after following).brings = [] := by cases following <;> rfl
    refine ⟨.after following, ?_, ?_, ?_, ?_, ?_, once.attended sole.attended, ?_⟩
    · rw [once.framed.senders]; exact set
    · rw [once.framed.senders]; exact others
    · exact once.framed.resetter.trans sole.uncalled
    · exact once.framed.clientReset.trans sole.unset
    · exact once.framed.queueShutdown.trans sole.live
    · rw [once.framed.accepted, brings]; exact sole.accepted
  | @deliver index ok operation waiting found =>
    have some : before.outstanding ≠ [] := by
      intro none
      rw [none] at found
      cases found
    obtain rfl := sole.attended.returned (.inr some)
    have attended : (before.reported index operation ok).Attended .outside :=
      sole.attended.kept (by simp [waiting]) rfl rfl (by cases operation <;> nofun)
    exact ⟨.outside, { sole with attended }⟩
  | drain waiting none dead =>
    rw [sole.live] at dead
    cases dead
  | sent turn | lost turn | checkReset turn | checkOk turn | checkFailed turn | notBusy turn | isBusy turn =>
    obtain rfl := sole.attended.returned (.inl (by simp [turn]))
    exact ⟨.outside, { sole with attended := sole.attended.kept (by simp [turn]) rfl rfl (by simp [turn]) }⟩
  | loopIdle turn =>
    obtain rfl := sole.attended.returned (.inl (by simp [turn]))
    exact ⟨.outside, { sole with attended := ⟨nofun, fun _ => .inr rfl⟩ }⟩
  | @loopOnce position moved following turn once =>
    obtain rfl := sole.attended.returned (.inl (by simp [turn]))
    refine ⟨.outside, ?_, ?_, ?_, ?_, ?_, once.empties turn sole.attended rfl rfl rfl, ?_⟩
    · rw [once.framed.senders]; exact sole.found
    · rw [once.framed.senders]; exact sole.others
    · exact once.framed.resetter.trans sole.uncalled
    · exact once.framed.clientReset.trans sole.unset
    · exact once.framed.queueShutdown.trans sole.live
    · rw [once.framed.accepted]; exact sole.accepted
  | restart turn live =>
    obtain rfl := sole.attended.returned (.inl (by simp [turn]))
    exact ⟨.outside, { sole with attended := sole.attended.kept (by simp [turn]) rfl rfl nofun }⟩
  | lateStart turn dead old =>
    rw [sole.live] at dead
    cases dead
  | store turn | clear turn | exitAgain turn | exit turn | shutdown turn | join turn | resetStream turn =>
    rw [sole.uncalled] at turn
    cases turn

/-- Between calls, before the reset, the event loop waits with the flag up. -/
private theorem Reaches.idle {state : State M} (reached : Reaches state) (unset : state.clientReset = false)
    (rest : state.AtRest) : state.loop = .next ∧ state.eventLoopIdle = true := by
  have kept := reached.sound.lifecycle (reached.sound.healthy unset)
  have waiting : state.loop = .next := by
    rcases rest.loop with ⟨waiting, _⟩ | finished
    · exact waiting
    · exact absurd finished (kept.running unset)
  refine ⟨waiting, ?_⟩
  have one := reached.sound.permits_eq unset
  have senders : Pool.total Sender.holds state.senders = 0 := rest.between.outside rfl
  simp only [State.permits, State.holders, State.operations, senders, waiting, rest.outstanding] at one
  cases up : state.eventLoopIdle with
  | true => rfl
  | false =>
    rw [up] at one
    cases one

/-- As long as one call still looks at the buffer, whatever was left there goes
out with its message, over as many streams as it takes. -/
theorem call_rescues {start state : State M} {thread : Nat} {message : M} {actions : List (Action M)}
    (reached : Reaches start) (before : start.BeforeReset) (rest : start.AtRest)
    (room : start.messageBuffer.length ≤ maxPendingMessagesSize)
    (executed : exec step start (.call thread message :: actions) = some state)
    (callless : ∀ action ∈ actions, action.callless) (settled : state.AtRest) :
    state.messageBuffer = [] ∧ state.written.map Prod.snd = start.accepted ++ [message] := by
  have reaches : Reaches state := reached.trans ⟨_, executed⟩
  obtain ⟨called, moved, remaining⟩ := exec_cons_some executed
  have sole : ∃ sender, State.Sole thread (start.accepted ++ [message]) called sender := by
    have healthy := reached.sound.healthy before.unset
    obtain ⟨waiting, up⟩ := reached.idle before.unset rest
    have live := (reached.sound.lifecycle healthy).live before.unset
    cases (step_cases moved).2 with
    | call found =>
      have others : ∀ thread' other, start.senders[thread']? = some other → thread' = thread ∨ other = .outside :=
        fun _ _ present => .inr (rest.senders _ (List.mem_of_getElem? present))
      obtain ⟨set, others⟩ := sole_set found others (.total message)
      exact ⟨.total message, set, others, before.uncalled, before.unset, live, ⟨⟨up, waiting, rest.outstanding⟩, room⟩, rfl⟩
  let held := fun state : State M => ∃ sender, State.Sole thread (start.accepted ++ [message]) state sender
  have kept : ∀ before action after, held before → Action.callless action → step before action = some after → held after := by
    intro before action after ⟨sender, sole⟩ callless executed
    exact sole.step (step_cases executed).2 callless
  obtain ⟨sender, sole⟩ := invariant kept sole (Along.of_actions called callless) remaining
  obtain rfl := settled.senders sender (List.mem_of_getElem? sole.found)
  obtain ⟨waiting, up⟩ := reaches.idle sole.unset settled
  have empty : state.messageBuffer = [] := by
    rcases sole.attended.2 up with empty | trying
    · exact empty
    · cases waiting.symm.trans trying
  refine ⟨empty, ?_⟩
  have none : state.popped = [] := by
    have senders : state.senders.flatMap Sender.popped = [] :=
      List.flatMap_eq_nil_iff.mpr fun sender member => by rw [settled.senders sender member]; rfl
    rw [State.popped, senders, waiting]
    rfl
  have channel := reaches.channel sole.unset
  have accepted : state.accepted = start.accepted ++ [message] := (List.append_nil _).symm.trans sole.accepted
  rw [State.channel, Fifo.Channel.accepted, none, empty, accepted] at channel
  simpa using channel

/-- The message that was left behind goes out first. -/
def rescuingRun : List (Action Nat) :=
  [.sender 0, .sender 0, .sender 0, .sender 0, .sender 0, .sender 0, .sender 0, .deliver 0 false, .loop, .loop, .loop, .loop,
    .deliver 0 true, .loop, .loop, .loop, .loop, .loop, .loop, .deliver 0 true, .loop, .loop, .loop, .loop, .loop, .loop, .loop]

theorem call_rescues_stranded :
    ∃ start state : State Nat, exec step constructed strandingRun = some start ∧ start.messageBuffer = [7] ∧
      exec step start (.call 0 8 :: rescuingRun) = some state ∧ state.written.map Prod.snd = [7, 8] :=
  ⟨_, _, rfl, rfl, rfl, (call_rescues ⟨strandingRun, rfl⟩ ⟨rfl, rfl⟩ ⟨by decide, rfl, rfl, .inl ⟨rfl, rfl⟩⟩ (by decide)
    (show exec step _ (.call 0 8 :: rescuingRun) = some _ from rfl) (by simp [rescuingRun, Action.callless])
    ⟨by decide, rfl, rfl, .inl ⟨rfl, rfl⟩⟩).2⟩

end Cpp2Sky.AsyncClient
