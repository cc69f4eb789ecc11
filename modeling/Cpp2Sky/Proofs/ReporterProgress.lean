import Cpp2Sky.Library.Potential
import Cpp2Sky.Proofs.ReporterPermit

/-! The reporter neither spins nor blocks. A potential counts the steps that are
still ahead of every thread, of every waiting message and of every operation.
Each step uses it up, and only a new call, a new thread or a failed operation
adds to it. Where it is used up as far as it goes, no thread waits for another. -/

namespace Cpp2Sky.AsyncClient
open Runs

variable {M : Type}

/-- A Write leaves its operation behind, and the operation comes back to the
event loop for its callback and one more `sendMessageOnce`. -/
def Once.work : Once M → Nat
  | .exchange => 4
  | .assertStream => 3
  | .popFront => 2
  | .markIdle => 1
  | .write _ => 9

def Operation.work : Operation M → Nat
  | .startCall _ => 7
  | .write _ _ => 8

/-- A call that stores its message leaves the work of writing it in the buffer. -/
def Sender.work : Sender M → Nat
  | .outside => 0
  | .total _ => 15
  | .size _ => 14
  | .push _ => 13
  | .overflow _ => 1
  | .once position => position.work

def Loop.work : Loop M → Nat
  | .finished => 0
  | .next => 1
  | .once position => position.work + 1
  | .markIdle => 6
  | .check true => 7
  | .count _ true => 8
  | .startStream => 9
  | .assertBusy => 10
  | .check false => 11
  | .count _ false => 12

def Resetter.work : Resetter → Nat
  | .outside => 0
  | .store => 6
  | .clear => 5
  | .exit => 4
  | .shutdown => 3
  | .join => 2
  | .resetStream => 1

def State.work (state : State M) : Nat :=
  if state.fault.isSome then 0
  else 8 * state.messageBuffer.length + Pool.total Sender.work state.senders + state.loop.work +
    Pool.total Operation.work state.outstanding + state.resetter.work + 1

/-- The work that comes from outside. A failed operation is followed by a new
StartCall, which can fail again. -/
def Action.pays : Action M → Nat
  | .spawn => 1
  | .call _ _ => 16
  | .deliver _ false => 4
  | .reset => 7
  | .sender _ | .deliver _ true | .drain | .loop | .resetter => 0

private theorem work_healthy {state : State M} (healthy : state.fault = none) :
    state.work = 8 * state.messageBuffer.length + Pool.total Sender.work state.senders + state.loop.work +
      Pool.total Operation.work state.outstanding + state.resetter.work + 1 := by
  simp [State.work, healthy]

theorem total_work {before : State M} {thread : Nat} {old : Sender M}
    (found : before.senders[thread]? = some old) (new : Sender M) :
    Pool.total Sender.work (before.senders.set thread new) + old.work =
      Pool.total Sender.work before.senders + new.work := Pool.total_set found new

/-- A step of `sendMessageOnce` leaves less to do, the operation of its Write included. -/
private theorem OnceStep.work {before moved : State M} {position following}
    (once : OnceStep before position moved following) (healthy : moved.fault = none) :
    8 * moved.messageBuffer.length + (Sender.after following).work + Pool.total Operation.work moved.outstanding + 1 ≤
      8 * before.messageBuffer.length + position.work + Pool.total Operation.work before.outstanding := by
  cases once with
  | claim | busy | present | markIdle => simp only [Sender.after, Sender.work, Once.work]; omega
  | empty => simp only [Sender.after, Sender.work, Once.work]; omega
  | pop buffer =>
    simp only [Sender.after, Sender.work, Once.work, buffer, List.length_cons]
    omega
  | write =>
    simp only [Sender.after, Sender.work, Once.work, Pool.total_append, Pool.total_singleton, Operation.work]
    omega
  | absent | late | null => cases healthy

theorem after_work (following : Option (Once M)) :
    (Loop.after following).work = (Sender.after following).work + 1 := by
  cases following <;> rfl

/-- What a report of an operation makes the event loop do was paid with it. -/
private theorem callback_work (operation : Operation M) (index : Nat) (ok : Bool) :
    (operation.callback ok).work ≤ operation.work + (Action.deliver (M := M) index ok).pays := by
  cases operation <;> cases ok <;> simp [Operation.callback, Loop.work, Operation.work, Action.pays]

private theorem Step.work {before after : State M} {action} (moves : Step before action after)
    (healthy : before.fault = none) : after.work + 1 ≤ before.work + action.pays := by
  by_cases sound : after.fault = none
  case neg =>
    have stopped : after.work = 0 := by simp [State.work, Option.isSome_iff_ne_none.mpr sound]
    rw [stopped, work_healthy healthy]
    omega
  rw [work_healthy healthy, work_healthy sound]
  cases moves with
  | spawn =>
    simp only [Pool.total_append, Pool.total_singleton, Sender.work, Action.pays]
    omega
  | @call thread message found =>
    have counted := total_work found (.total message)
    simp only [Sender.work, Action.pays] at counted ⊢
    omega
  | @total thread message found =>
    have counted := total_work found (.size message)
    simp only [Sender.work, Action.pays] at counted ⊢
    omega
  | @full thread message found =>
    have counted := total_work found (.overflow message)
    simp only [Sender.work, Action.pays] at counted ⊢
    omega
  | @room thread message found =>
    have counted := total_work found (.push message)
    simp only [Sender.work, Action.pays] at counted ⊢
    omega
  | @overflow thread message found =>
    have counted := total_work found .outside
    simp only [Sender.work, Action.pays] at counted ⊢
    omega
  | @push thread message found =>
    have counted := total_work found (.once .exchange)
    simp only [Sender.work, Once.work, Action.pays, List.length_append, List.length_singleton] at counted ⊢
    omega
  | @senderOnce thread position moved following found once =>
    have counted : Pool.total Sender.work (before.senders.set thread (.after following)) + position.work =
        Pool.total Sender.work before.senders + (Sender.after following).work := total_work found _
    have used := once.work sound
    simp only [once.framed.senders, once.framed.loop, once.framed.resetter]
    omega
  | @deliver index ok operation waiting found =>
    have called := callback_work operation index ok
    have taken : Pool.total Operation.work (before.outstanding.eraseIdx index) + operation.work =
        Pool.total Operation.work before.outstanding := Pool.total_eraseIdx found
    have idle : before.loop.work = 1 := by rw [waiting]; rfl
    simp only [State.reported]
    omega
  | @loopOnce position moved following turn once =>
    have used := once.work sound
    have busy : before.loop.work = position.work + 1 := congrArg Loop.work turn
    simp only [once.framed.senders, once.framed.resetter, after_work]
    omega
  | checkReset turn set =>
    have busy := congrArg Loop.work turn
    rename_i ok
    cases ok <;> simp only [Loop.work] at busy ⊢ <;> omega
  | drain turn | sent turn | lost turn | checkOk turn | checkFailed turn | loopIdle turn | isBusy turn =>
    have busy := congrArg Loop.work turn
    simp only [Loop.work, Once.work] at busy ⊢
    omega
  | restart turn live =>
    have busy := congrArg Loop.work turn
    simp only [State.withStream, Pool.total_append, Pool.total_singleton, Operation.work, Loop.work] at busy ⊢
    omega
  | notBusy | lateStart => cases sound
  | reset turn | store turn | exitAgain turn | exit turn | shutdown turn | join turn | resetStream turn =>
    have ahead := congrArg Resetter.work turn
    simp only [Resetter.work, Action.pays] at ahead ⊢
    omega
  | clear turn =>
    have ahead := congrArg Resetter.work turn
    simp only [Resetter.work, List.length_nil] at ahead ⊢
    omega

private theorem step_paid (before : State M) (action : Action M) (after : State M)
    (executed : step before action = some after) : after.work + 1 ≤ before.work + action.pays := by
  obtain ⟨healthy, moves⟩ := step_cases executed
  exact moves.work healthy

private theorem constructed_work : (constructed : State M).work = 9 := by
  rw [constructed_eq]
  rfl

/-- All threads together, whatever they do: each call, each failed operation and
each reset is answered by so many steps at most. -/
theorem work_bounded {state : State M} {actions : List (Action M)} (executed : exec step constructed actions = some state) :
    actions.length + state.work ≤ 9 + Pool.total Action.pays actions := by
  have bounded := length_le_paid step_paid executed
  rwa [constructed_work] at bounded

theorem work_bounded_writing :
    ∃ state : State Nat, exec step constructed writingRun = some state ∧
      writingRun.length + state.work ≤ 9 + Pool.total Action.pays writingRun :=
  ⟨_, rfl, work_bounded (show exec step constructed writingRun = some _ from rfl)⟩

/-- The steps that the threads of the reporter take by themselves, with a gRPC
that completes what it was given. -/
def Action.own : Action M → Prop
  | .sender _ | .deliver _ true | .drain | .loop | .resetter => True
  | .spawn | .call _ _ | .deliver _ false | .reset => False

/-- Every call returned, every operation was reported, and the event loop waits
for the next one or has ended with its queue. -/
structure State.AtRest (state : State M) : Prop where
  senders : ∀ sender ∈ state.senders, sender = .outside
  resetter : state.resetter = .outside
  outstanding : state.outstanding = []
  loop : state.loop = .next ∧ state.queueShutdown = false ∨ state.loop = .finished

theorem State.AtRest.between {state : State M} (rest : state.AtRest) : state.Between := by
  refine ⟨rest.senders, ?_⟩
  rcases rest.loop with ⟨waiting, _⟩ | finished
  · rw [waiting]
    rfl
  · rw [finished]
    rfl

/-- The event loop thread ends with nothing outstanding, and nothing is started
on the queue after that. -/
private theorem Reaches.drained {state : State M} (reached : Reaches state) :
    state.fault = none → state.loop = .finished → state.outstanding = [] := by
  refine Reachable.induct reached ?_ ?_
  · intro _ finished
    rw [constructed_eq] at finished
    cases finished
  · intro before action after reached kept executed sound
    obtain ⟨healthy, moves⟩ := step_cases executed
    have kept := kept healthy
    have dead := (Reaches.sound reached).lifecycle healthy
    cases moves with
    | senderOnce found once =>
      intro finished
      rw [once.framed.loop] at finished
      cases once with
      | write active live =>
        rw [dead.finished finished] at live
        cases live
      | _ => exact kept finished
    | drain waiting empty => exact fun _ => empty
    | deliver => exact fun finished => absurd finished (callback_ne_finished _ _)
    | loopOnce => exact fun finished => absurd finished (after_ne_finished _)
    | lateStart => cases sound
    | notBusy => cases sound
    | sent | lost | checkReset | checkOk | checkFailed | loopIdle | isBusy | restart => exact nofun
    | _ => exact kept

section Stuck
variable {state : State M} (healthy : state.fault = none)
include healthy

theorem sender_enabled {thread : Nat} {sender : Sender M} (found : state.senders[thread]? = some sender)
    (still : step state (.sender thread) = none) : sender = .outside := by
  cases sender with
  | outside => rfl
  | _ => simp [step, healthy, found, sendMessage] at still

private theorem loop_enabled (still : step state .loop = none) : state.loop = .next ∨ state.loop = .finished := by
  cases turn : state.loop with
  | next => exact .inl rfl
  | finished => exact .inr rfl
  | count message ok => cases ok <;> simp [step, healthy, turn, callback] at still
  | assertBusy => cases idle : state.eventLoopIdle <;> simp [step, healthy, turn, callback, idle] at still
  | _ => simp [step, healthy, turn, callback] at still

private theorem resetter_enabled (still : step state .resetter = none) :
    state.resetter = .outside ∨ state.resetter = .join ∧ state.loop ≠ .finished := by
  cases turn : state.resetter with
  | outside => exact .inl rfl
  | join =>
    refine .inr ⟨rfl, ?_⟩
    intro finished
    simp [step, healthy, turn, resetClient, finished] at still
  | exit => cases exited : state.exited <;> simp [step, healthy, turn, resetClient, exited] at still
  | _ => simp [step, healthy, turn, resetClient] at still

private theorem deliver_enabled (waiting : state.loop = .next) (still : step state (.deliver 0 true) = none) :
    state.outstanding = [] := by
  cases only : state.outstanding with
  | nil => rfl
  | cons operation rest => simp [step, healthy, waiting, only] at still

private theorem drain_enabled (waiting : state.loop = .next) (empty : state.outstanding = [])
    (still : step state .drain = none) : state.queueShutdown = false := by
  cases dead : state.queueShutdown with
  | false => rfl
  | true => simp [step, healthy, waiting, empty, dead] at still

end Stuck

/-- No step of its own is left to a program only where it rests or has failed. A
join waits for the event loop, and the event loop for nothing but the queue. -/
theorem at_rest {state : State M} (reached : Reaches state) (still : ∀ action, Action.own action → step state action = none) :
    state.fault ≠ none ∨ state.AtRest := by
  by_cases healthy : state.fault = none
  case neg => exact .inl healthy
  right
  have kept := reached.sound.lifecycle healthy
  have loop : state.loop = .next ∧ state.queueShutdown = false ∨ state.loop = .finished := by
    rcases loop_enabled healthy (still .loop True.intro) with waiting | finished
    · have empty := deliver_enabled healthy waiting (still (.deliver 0 true) True.intro)
      exact .inl ⟨waiting, drain_enabled healthy waiting empty (still .drain True.intro)⟩
    · exact .inr finished
  refine ⟨?_, ?_, ?_, loop⟩
  · intro sender member
    obtain ⟨thread, found⟩ := List.getElem?_of_mem member
    exact sender_enabled healthy found (still (.sender thread) True.intro)
  · rcases resetter_enabled healthy (still .resetter True.intro) with outside | ⟨joining, running⟩
    · exact outside
    · rcases loop with ⟨_, live⟩ | finished
      · rw [kept.joining joining] at live
        cases live
      · exact absurd finished running
  · rcases loop with ⟨waiting, _⟩ | finished
    · exact deliver_enabled healthy waiting (still (.deliver 0 true) True.intro)
    · exact reached.drained healthy finished

/-- From any reachable state every schedule of the threads is finite, can be
carried on until nothing is left to do, and leaves no call without its return. -/
theorem schedules_settle {start state : State M} {actions : List (Action M)} (reached : Reaches start)
    (own : ∀ action ∈ actions, action.own) (executed : exec step start actions = some state) :
    actions.length ≤ start.work ∧
      ((∀ action, Action.own action → step state action = none) → state.fault ≠ none ∨ state.AtRest) ∧
      ∃ rest final, (∀ action ∈ rest, action.own) ∧ exec step state rest = some final ∧
        (final.fault ≠ none ∨ final.AtRest) := by
  have free : ∀ action : Action M, action.own → action.pays = 0 := by
    intro action mine
    cases action with
    | deliver index ok => cases ok <;> first | rfl | exact mine.elim
    | sender | drain | loop | resetter => rfl
    | spawn | call | reset => exact mine.elim
  have reaches : Reaches state := reached.trans ⟨actions, executed⟩
  refine ⟨?_, at_rest reaches, ?_⟩
  · have bounded := length_le_paid step_paid executed
    have nothing : Pool.total Action.pays actions = 0 := Pool.total_zero fun action member => free action (own action member)
    omega
  · obtain ⟨rest, final, every, finished, still⟩ := settles step_paid free state
    exact ⟨rest, final, every, finished, at_rest (reaches.trans ⟨rest, finished⟩) still⟩

/-- The message goes out, and the callback of its Write is on the way. -/
def finishingRun : List (Action Nat) := [.sender 0, .loop, .deliver 0 true]

theorem schedules_settle_writing :
    ∃ start state : State Nat, exec step constructed writingRun = some start ∧ exec step start finishingRun = some state ∧
      3 ≤ start.work ∧ ∃ rest final, exec step state rest = some final ∧ (final.fault ≠ none ∨ final.AtRest) := by
  have own : ∀ action ∈ finishingRun, action.own := by simp [finishingRun, Action.own]
  obtain ⟨bounded, _, rest, final, _, finished, still⟩ := schedules_settle ⟨writingRun, rfl⟩ own
    (show exec step _ finishingRun = some _ from rfl)
  exact ⟨_, _, rfl, rfl, bounded, rest, final, finished, still⟩

end Cpp2Sky.AsyncClient
