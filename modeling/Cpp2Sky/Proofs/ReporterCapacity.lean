import Cpp2Sky.Library.Pool
import Cpp2Sky.Proofs.ReporterPermit

/-! How many messages wait at once. A call looks at the size in one locked step
and pushes in a later one, and it lets a message pass at the limit itself. The
bound is safe as long as each check leaves room for those on their way. -/

namespace Cpp2Sky.AsyncClient
open Runs

variable {M : Type}

/-- The call of some thread has to store or drop a message for which the buffer
has no place left. -/
structure Overflowing (before : State M) (thread : Nat) (message : M) : Prop where
  decides : before.senders[thread]? = some (.push message) ∨ before.senders[thread]? = some (.overflow message)
  full : maxPendingMessagesSize < before.messageBuffer.length + 1

/-- The message is dropped and counted. -/
structure Refused (before : State M) (message : M) (after : State M) : Prop where
  messageBuffer : after.messageBuffer = before.messageBuffer
  accepted : after.accepted = before.accepted
  messagesDropped : after.messagesDropped = before.messagesDropped + 1
  dropped : after.dropped = before.dropped ++ [message]

/-- The step leaves no more messages than the buffer may hold, and the message
that would make it more is refused. -/
def KeepsBound (before : State M) (action : Action M) : Prop :=
  ∀ after, step before action = some after →
    after.messageBuffer.length ≤ maxPendingMessagesSize ∧
      ∀ thread message, action = .sender thread → Overflowing before thread message → Refused before message after

/-- Past the check, before the push. -/
def Sender.pushes : Sender M → Nat
  | .push _ => 1
  | _ => 0

def Sender.checks : Sender M → Bool
  | .size _ => true
  | _ => false

/-- The calls that have passed the check and not pushed yet. -/
def State.pushing (state : State M) : Nat := Pool.total Sender.pushes state.senders

/-- What the buffer holds once these have pushed, unless a message is popped. -/
def State.load (state : State M) : Nat := state.messageBuffer.length + state.pushing

/-- A call that looks at the size finds room for one message more than those in
the buffer and those of the calls that have passed the check. -/
def ChecksBelow (before : State M) : Action M → Prop
  | .sender thread => before.senders[thread]?.any Sender.checks = true → before.load < maxPendingMessagesSize
  | _ => True

instance (before : State M) (action : Action M) : Decidable (ChecksBelow before action) := by
  cases action with
  | sender => exact inferInstanceAs (Decidable (_ → _))
  | _ => exact inferInstanceAs (Decidable True)

def Pushes (before : State M) (action : Action M) : Prop :=
  ∃ thread message, action = .sender thread ∧ before.senders[thread]? = some (.push message)

/-- The step keeps the bound, and so do the calls that have passed the check
when they push after it, in any order. -/
structure KeepsRoom (before : State M) (action : Action M) : Prop where
  bound : KeepsBound before action
  pushes : ∀ after pushes, step before action = some after → Along step Pushes after pushes →
    Along step KeepsBound after pushes

private theorem OnceStep.shorter {before moved : State M} {position following}
    (once : OnceStep before position moved following) :
    moved.messageBuffer.length ≤ before.messageBuffer.length := by
  cases once with
  | pop buffer => simp [buffer]
  | _ => exact Nat.le_refl _

private theorem pushing_pos {before : State M} {thread : Nat} {message : M}
    (found : before.senders[thread]? = some (.push message)) : 1 ≤ before.pushing := by
  have pusher : Sender.pushes (.push message) ≤ Pool.total Sender.pushes before.senders :=
    Pool.weight_le (List.mem_of_getElem? found)
  exact pusher

private theorem exists_pushing {state : State M} (positive : 0 < state.pushing) :
    ∃ (thread : Nat) (message : M), state.senders[thread]? = some (.push message) := by
  by_contra nobody
  have none : state.pushing = 0 := by
    apply Pool.total_zero
    intro sender member
    obtain ⟨thread, found⟩ := List.getElem?_of_mem member
    cases sender with
    | push message => exact absurd ⟨thread, message, found⟩ nobody
    | _ => rfl
  omega

/-- A thread that is not to push next adds no more than it had pushing. -/
private theorem load_moved {before : State M} {thread : Nat} {old new : Sender M} {length : Nat}
    (found : before.senders[thread]? = some old) (away : new.pushes = 0)
    (fits : length ≤ before.messageBuffer.length + old.pushes) :
    length + Pool.total Sender.pushes (before.senders.set thread new) ≤ before.load := by
  have moved : Pool.total Sender.pushes (before.senders.set thread new) + old.pushes = before.pushing + new.pushes :=
    Pool.total_set found new
  rw [away] at moved
  rw [State.load]
  omega

private theorem load_passed {before : State M} {thread : Nat} {message : M}
    (found : before.senders[thread]? = some (.size message)) :
    State.load { before with senders := before.senders.set thread (.push message) } = before.load + 1 := by
  have moved : Pool.total Sender.pushes (before.senders.set thread (.push message)) + 0 = before.pushing + 1 :=
    Pool.total_set found _
  simp only [State.load, State.pushing] at moved ⊢
  omega

/-- Only a check that passes adds to the load, whatever the load is. -/
private theorem Step.load {before after : State M} {action : Action M} (moves : Step before action after) :
    after.load ≤ before.load ∨ ∃ thread message, action = .sender thread ∧
      before.senders[thread]? = some (.size message) ∧ after.messageBuffer.length ≤ maxPendingMessagesSize ∧
        after.load = before.load + 1 := by
  cases moves with
  | spawn =>
    apply Or.inl
    simp [State.load, State.pushing, Sender.pushes]
  | @room thread message found pending =>
    exact .inr ⟨thread, message, rfl, found, pending, load_passed found⟩
  | call found | total found | full found | overflow found =>
    exact .inl (load_moved found rfl (Nat.le_add_right _ _))
  | push found => exact .inl (load_moved found rfl (Nat.le_of_eq List.length_append))
  | @senderOnce thread position moved following found once =>
    have away : (Sender.after following).pushes = 0 := by cases following <;> rfl
    apply Or.inl
    simp only [State.load, State.pushing, once.framed.senders]
    exact load_moved found away (once.shorter.trans (Nat.le_add_right _ _))
  | loopOnce turn once =>
    apply Or.inl
    simp only [State.load, State.pushing, once.framed.senders]
    exact Nat.add_le_add_right once.shorter _
  | lateStart turn dead old =>
    apply Or.inl
    rcases old with rfl | rfl <;> exact Nat.le_refl _
  | clear => exact .inl (Nat.add_le_add_right (Nat.zero_le _) _)
  | _ => exact .inl (Nat.le_refl _)

private theorem Step.load_kept {before after : State M} {action : Action M} (moves : Step before action after)
    (few : before.load ≤ maxPendingMessagesSize) (below : ChecksBelow before action) :
    after.load ≤ maxPendingMessagesSize := by
  rcases moves.load with less | ⟨thread, message, turn, found, _, more⟩
  · exact less.trans few
  · subst turn
    have room : before.load < maxPendingMessagesSize := below (by rw [found]; rfl)
    omega

private theorem keepsBound {before : State M} (few : before.load ≤ maxPendingMessagesSize) (action : Action M) :
    KeepsBound before action := by
  intro after executed
  have moves := (step_cases executed).2
  refine ⟨?_, ?_⟩
  · rcases moves.load with less | ⟨_, _, _, _, short, _⟩
    · exact (Nat.le_add_right _ _).trans (less.trans few)
    · exact short
  · intro thread message turn overflowing
    have full := overflowing.full
    rcases overflowing.decides with push | overflow
    · have pushing := pushing_pos push
      rw [State.load] at few
      omega
    · subst turn
      cases moves with
      | overflow found =>
        cases found.symm.trans overflow
        exact ⟨rfl, rfl, rfl, rfl⟩
      | total found | full found | room found | push found | senderOnce found => cases found.symm.trans overflow

private theorem pushes_keep {start : State M} {pushes : List (Action M)} (few : start.load ≤ maxPendingMessagesSize)
    (along : Along step Pushes start pushes) : Along step KeepsBound start pushes := by
  let bounded := fun state : State M => state.load ≤ maxPendingMessagesSize
  have same : ∀ before action, bounded before → Pushes before action → (KeepsBound before action ↔ True) :=
    fun _ action few _ => iff_true_intro (keepsBound few action)
  have kept : ∀ before action after, bounded before → Pushes before action → True → step before action = some after →
      bounded after := by
    intro before action after few pushes _ executed
    apply (step_cases executed).2.load_kept few
    obtain ⟨thread, message, rfl, found⟩ := pushes
    intro checks
    rw [found] at checks
    cases checks
  exact (along_iff same kept few along).mpr (Along.trivial start pushes)

private theorem push_stores {state : State M} {thread : Nat} {message : M} (healthy : state.fault = none)
    (found : state.senders[thread]? = some (.push message)) :
    ∃ after, step state (.sender thread) = some after ∧ after.fault = none ∧
      after.messageBuffer.length = state.messageBuffer.length + 1 ∧
        after.senders = state.senders.set thread (.once .exchange) := by
  have pushed : step state (.sender thread) = some { state with
      messageBuffer := state.messageBuffer ++ [message]
      accepted := state.accepted ++ [message]
      senders := state.senders.set thread (.once .exchange) } := by
    simp [step, healthy, found, sendMessage, ValueBuffer.pushBack]
  exact ⟨_, pushed, healthy, List.length_append, rfl⟩

/-- Where all of them push, the buffer holds the whole load. -/
private theorem all_push {state : State M} (healthy : state.fault = none) :
    ∃ pushes final, Along step Pushes state pushes ∧ exec step state pushes = some final ∧
      final.messageBuffer.length = state.load := by
  induction more : state.pushing generalizing state with
  | zero => exact ⟨[], state, True.intro, rfl, by rw [State.load, more]; rfl⟩
  | succ count ih =>
    obtain ⟨thread, message, found⟩ := exists_pushing (show 0 < state.pushing by omega)
    obtain ⟨after, pushed, sound, longer, senders⟩ := push_stores healthy found
    have moved : Pool.total Sender.pushes (state.senders.set thread (.once .exchange)) + 1 =
        state.pushing + 0 := Pool.total_set found _
    have fewer : after.pushing = count := by
      rw [State.pushing, senders]
      omega
    obtain ⟨pushes, final, along, executed, length⟩ := ih sound fewer
    refine ⟨.sender thread :: pushes, final, ?_, ?_, ?_⟩
    · exact (Along.cons_some pushed).mpr ⟨⟨thread, message, rfl, found⟩, along⟩
    · rw [exec_cons, pushed]
      exact executed
    · rw [length, State.load, State.load]
      omega

/-- Where the bound is kept however they push, the load is within it already. -/
private theorem load_fits {state : State M} (healthy : state.fault = none)
    (few : state.messageBuffer.length ≤ maxPendingMessagesSize)
    (keeps : ∀ pushes, Along step Pushes state pushes → Along step KeepsBound state pushes) :
    state.load ≤ maxPendingMessagesSize := by
  let bounded := fun state : State M => state.messageBuffer.length ≤ maxPendingMessagesSize
  have kept : ∀ before action after, bounded before → KeepsBound before action → step before action = some after → bounded after :=
    fun _ _ after _ keeps executed => (keeps after executed).1
  obtain ⟨pushes, final, along, executed, length⟩ := all_push healthy
  have short : bounded final := invariant kept few (keeps pushes along) executed
  rw [← length]
  exact short

private theorem keepsRoom_iff {before after : State M} {action : Action M}
    (few : before.load ≤ maxPendingMessagesSize) (executed : step before action = some after) :
    KeepsRoom before action ↔ ChecksBelow before action := by
  obtain ⟨healthy, moves⟩ := step_cases executed
  have short : before.messageBuffer.length ≤ maxPendingMessagesSize := (Nat.le_add_right _ _).trans few
  constructor
  · intro keeps
    cases moves with
    | room found =>
      have fits : before.load + 1 ≤ maxPendingMessagesSize := by
        rw [← load_passed found]
        exact load_fits healthy short fun pushes => keeps.pushes _ pushes executed
      exact fun _ => fits
    | full found pending => exact absurd short (Nat.not_le.mpr pending)
    | total found | overflow found | push found | senderOnce found =>
      intro checks
      rw [found] at checks
      cases checks
    | _ => exact True.intro
  · intro below
    refine ⟨keepsBound few action, ?_⟩
    intro other pushes same along
    obtain rfl := Option.some.inj (executed.symm.trans same)
    exact pushes_keep (moves.load_kept few below) along

theorem pending_bounded_iff {state : State M} {actions : List (Action M)}
    (executed : exec step constructed actions = some state) :
    Along step ChecksBelow constructed actions ↔ Along step KeepsRoom constructed actions := by
  let bounded := fun state : State M => state.load ≤ maxPendingMessagesSize
  have initial : bounded constructed := by
    show State.load constructed ≤ maxPendingMessagesSize
    rw [constructed_eq]
    exact Nat.zero_le _
  refine (along_iff ?_ (fun before action after few _ below executed => ?_) initial (Along.executed executed)).symm
  · intro before action few executes
    obtain ⟨after, executed⟩ := executes
    exact keepsRoom_iff few executed
  · exact (step_cases executed).2.load_kept few below

/-- Two threads call, and the event loop sends what the first has pushed. -/
def twoSendersRun : List (Action Nat) :=
  [.spawn, .spawn, .call 0 7, .call 1 8, .sender 0, .sender 1, .sender 0, .sender 1, .sender 0, .deliver 0 true, .loop,
    .loop, .loop, .loop, .loop, .sender 1]

theorem pending_bounded_iff_two_senders :
    Along step KeepsRoom (constructed : State Nat) twoSendersRun :=
  (pending_bounded_iff (show exec step constructed twoSendersRun = some _ from rfl)).mp (by decide)

private theorem pushing_le (senders : List (Sender M)) : Pool.total Sender.pushes senders ≤ senders.length := by
  induction senders with
  | nil => exact Nat.le_refl _
  | cons sender rest ih =>
    have one : sender.pushes ≤ 1 := by cases sender <;> simp [Sender.pushes]
    simp only [Pool.total, List.map_cons, List.sum_cons, List.length_cons] at ih ⊢
    omega

private theorem Step.threads {before after : State M} {action : Action M} (moves : Step before action after) :
    before.senders.length ≤ after.senders.length := by
  cases moves with
  | spawn => simp
  | call | total | full | room | overflow | push => simp
  | senderOnce found once => simp [once.framed.senders]
  | loopOnce turn once => simp [once.framed.senders]
  | lateStart turn dead old => rcases old with rfl | rfl <;> exact Nat.le_refl _
  | _ => exact Nat.le_refl _

/-- Whatever the threads do, each can pass the check once at the limit. -/
theorem Reaches.load {state : State M} (reached : Reaches state) :
    state.load ≤ maxPendingMessagesSize + state.senders.length := by
  refine Reachable.induct reached ?_ fun before action after _ kept executed => ?_
  · rw [constructed_eq]
    exact Nat.zero_le _
  · have moves := (step_cases executed).2
    rcases moves.load with less | ⟨_, _, _, _, short, _⟩
    · have threads := moves.threads
      omega
    · exact Nat.add_le_add short (pushing_le _)

/-- One thread has called `sendMessage` so many times before the first StartCall
was reported. -/
def filled (count : Nat) : State Nat :=
  { constructed with
    senders := [.outside], messagesTotal := UInt64.ofNat count
    messageBuffer := List.replicate count 7, submitted := List.replicate count 7, accepted := List.replicate count 7 }

private theorem filled_next {count : Nat} (room : count ≤ maxPendingMessagesSize) :
    exec step (filled count) [.call 0 7, .sender 0, .sender 0, .sender 0, .sender 0] = some (filled (count + 1)) := by
  have passes : ¬ maxPendingMessagesSize < count := Nat.not_lt.mpr room
  simp [exec, step, filled, sendMessage, sendMessageOnce, Sender.after, State.withStream, ValueBuffer.size,
    ValueBuffer.pushBack, passes, List.replicate_succ', UInt64.ofNat_add]

private theorem filled_reached {count : Nat} (room : count ≤ maxPendingMessagesSize + 1) : Reaches (filled count) := by
  induction count with
  | zero => exact ⟨[.spawn], rfl⟩
  | succ count ih => exact (ih (by omega)).trans ⟨_, filled_next (by omega)⟩

theorem pending_exceeds_maximum :
    ∃ state : State Nat, Reaches state ∧ state.senders.length = 1 ∧ state.messagesDropped = 0 ∧
      maxPendingMessagesSize < state.messageBuffer.length := by
  have length : (filled 1025).messageBuffer.length = 1025 := List.length_replicate
  exact ⟨filled 1025, filled_reached (by decide), rfl, rfl, by rw [length]; decide⟩

/-- A call whose exchange finds the flag down stores its message and returns. -/
theorem call_stores {state : State M} {thread : Nat} (message : M) (healthy : state.fault = none)
    (found : state.senders[thread]? = some .outside) (busy : state.eventLoopIdle = false)
    (room : state.messageBuffer.length ≤ maxPendingMessagesSize) :
    exec step state [.call thread message, .sender thread, .sender thread, .sender thread, .sender thread] = some { state with
      messagesTotal := state.messagesTotal + 1
      submitted := state.submitted ++ [message]
      messageBuffer := state.messageBuffer ++ [message]
      accepted := state.accepted ++ [message] } := by
  have passes : ¬ maxPendingMessagesSize < state.messageBuffer.length := Nat.not_lt.mpr room
  obtain ⟨inside, outside⟩ := List.getElem?_eq_some_iff.mp found
  have back : state.senders.set thread .outside = state.senders := outside ▸ List.set_getElem_self inside
  simp [exec, step, healthy, sendMessage, sendMessageOnce, busy, Sender.after, ValueBuffer.size, ValueBuffer.pushBack,
    passes, inside, outside, back]

section Limit
variable {threads : Nat}

private theorem spawned (threads : Nat) :
    ∃ state : State M, Reaches state ∧ state.senders = List.replicate threads .outside ∧ state.eventLoopIdle = false ∧
      state.fault = none ∧ state.messageBuffer = [] := by
  induction threads with
  | zero => exact ⟨_, .refl _, by rw [constructed_eq]; exact ⟨rfl, rfl, rfl, rfl⟩⟩
  | succ threads ih =>
    obtain ⟨state, reached, senders, idle, healthy, empty⟩ := ih
    have moved : step state .spawn = some { state with senders := state.senders ++ [.outside] } := by simp [step, healthy]
    exact ⟨_, reached.next moved, by rw [senders, List.replicate_succ'], idle, healthy, empty⟩

/-- One of the threads fills the buffer up to the limit before the first
StartCall is reported. -/
private theorem filled_by_one (message : M) (some : 0 < threads) (count : Nat) (room : count ≤ maxPendingMessagesSize) :
    ∃ state : State M, Reaches state ∧ state.senders = List.replicate threads .outside ∧ state.eventLoopIdle = false ∧
      state.fault = none ∧ state.messageBuffer.length = count := by
  induction count with
  | zero =>
    obtain ⟨state, reached, senders, idle, healthy, empty⟩ := spawned threads
    exact ⟨state, reached, senders, idle, healthy, by rw [empty]; rfl⟩
  | succ count ih =>
    obtain ⟨state, reached, senders, idle, healthy, length⟩ := ih (by omega)
    have found : state.senders[0]? = .some .outside := by rw [senders]; simp [some]
    have stored := call_stores message healthy found idle (by omega)
    exact ⟨_, reached.trans ⟨_, stored⟩, senders, idle, healthy, by simp [length]⟩

/-- Where one thread can go from one position to another and leave the others
where they are, all of them can, one after the other. -/
private theorem each_in_turn {old new : Sender M} {keeps : Nat → State M → Prop}
    (moves : ∀ thread state, Reaches state → keeps thread state → state.senders[thread]? = some old →
      ∃ after, Reaches after ∧ keeps (thread + 1) after ∧ after.senders = state.senders.set thread new)
    {start : State M} (reached : Reaches start) (initial : keeps 0 start)
    (senders : start.senders = List.replicate threads old) :
    ∃ final, Reaches final ∧ keeps threads final ∧ final.senders = List.replicate threads new := by
  have turns : ∀ moved ≤ threads, ∃ state, Reaches state ∧ keeps moved state ∧
      state.senders = List.replicate moved new ++ List.replicate (threads - moved) old := by
    intro moved
    induction moved with
    | zero => exact fun _ => ⟨start, reached, initial, senders⟩
    | succ moved ih =>
      intro inside
      obtain ⟨state, reached, kept, positions⟩ := ih (by omega)
      obtain ⟨left, more⟩ : ∃ left, threads - moved = left + 1 := ⟨threads - moved - 1, by omega⟩
      have found : state.senders[moved]? = some old := by simp [positions, more, List.replicate_succ]
      obtain ⟨after, reaches, keeps, set⟩ := moves moved state reached kept found
      refine ⟨after, reaches, keeps, ?_⟩
      have rest : threads - (moved + 1) = left := by omega
      have longer : List.replicate (moved + 1) new = List.replicate moved new ++ [new] := List.replicate_succ'
      rw [set, positions, more, rest, longer]
      simp [List.replicate_succ]
  obtain ⟨final, reaches, kept, positions⟩ := turns threads (Nat.le_refl _)
  refine ⟨final, reaches, kept, ?_⟩
  rw [positions, Nat.sub_self, List.replicate_zero, List.append_nil]

/-- All threads look at the size before any of them pushes. -/
private theorem all_pushing (message : M) (some : 0 < threads) :
    ∃ state : State M, Reaches state ∧ state.senders = List.replicate threads (.push message) ∧ state.fault = none ∧
      state.messageBuffer.length = maxPendingMessagesSize := by
  obtain ⟨state, reached, senders, _, healthy, length⟩ := filled_by_one message some maxPendingMessagesSize (Nat.le_refl _)
  let keeps := fun (_ : Nat) (state : State M) => state.fault = none ∧ state.messageBuffer.length = maxPendingMessagesSize
  have moves : ∀ thread state, Reaches state → keeps thread state → state.senders[thread]? = .some .outside →
      ∃ after, Reaches after ∧ keeps (thread + 1) after ∧ after.senders = state.senders.set thread (.push message) := by
    intro thread state reached ⟨healthy, length⟩ found
    obtain ⟨inside, outside⟩ := List.getElem?_eq_some_iff.mp found
    have looked : exec step state [.call thread message, .sender thread, .sender thread] = .some { state with
        messagesTotal := state.messagesTotal + 1
        submitted := state.submitted ++ [message]
        senders := state.senders.set thread (.push message) } := by
      simp [exec, step, healthy, sendMessage, ValueBuffer.size, length, inside, outside]
    exact ⟨_, reached.trans ⟨_, looked⟩, ⟨healthy, length⟩, rfl⟩
  obtain ⟨final, reaches, ⟨healthy, length⟩, positions⟩ := each_in_turn moves reached ⟨healthy, length⟩ senders
  exact ⟨final, reaches, positions, healthy, length⟩

/-- As many messages as threads can be waiting beyond the limit, and never more,
in any state of any run. -/
theorem pending_limit :
    (∀ state : State M, Reaches state →
      state.messageBuffer.length ≤ maxPendingMessagesSize + state.senders.length) ∧
    (∀ (_ : M) (threads : Nat), 0 < threads → ∃ state : State M, Reaches state ∧
      state.senders.length = threads ∧ state.messageBuffer.length = maxPendingMessagesSize + threads) := by
  refine ⟨fun state reached => (Nat.le_add_right _ _).trans reached.load, fun message threads some => ?_⟩
  obtain ⟨state, reached, senders, healthy, length⟩ := all_pushing message some
  let keeps := fun (pushed : Nat) (state : State M) =>
    state.fault = none ∧ state.messageBuffer.length = maxPendingMessagesSize + pushed
  have moves : ∀ thread state, Reaches state → keeps thread state → state.senders[thread]? = .some (.push message) →
      ∃ after, Reaches after ∧ keeps (thread + 1) after ∧ after.senders = state.senders.set thread (.once .exchange) := by
    intro thread state reached ⟨healthy, length⟩ found
    obtain ⟨after, pushed, healthy, longer, senders⟩ := push_stores healthy found
    refine ⟨after, reached.next pushed, ⟨healthy, ?_⟩, senders⟩
    rw [longer, length]
    rfl
  obtain ⟨final, reaches, ⟨_, length⟩, positions⟩ := each_in_turn moves reached ⟨healthy, length⟩ senders
  exact ⟨final, reaches, by rw [positions, List.length_replicate], length⟩

end Limit

end Cpp2Sky.AsyncClient
