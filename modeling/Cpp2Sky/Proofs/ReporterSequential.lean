import Cpp2Sky.Proofs.ReporterQueue

/-! Calls and completions that run one at a time. `resetClient` takes the stream
away and leaves the flag as it was, and `sendMessageOnce` does not read
`client_reset_`: a reset while the flag is up leaves an assertion that the next
`sendMessage` runs into. -/

namespace Cpp2Sky.AsyncClient
open Runs

variable {M : Type}

/-- Every call and every completion starts when the ones before it are over.
`resetClient` itself waits in its join for the remaining completions. -/
def Sequential (state : State M) : Action M → Prop
  | .call _ _ | .reset => state.Between ∧ state.resetter = .outside
  | .deliver _ _ => state.Between ∧ (state.resetter = .outside ∨ state.resetter = .join)
  | .spawn | .sender _ | .drain | .loop | .resetter => True

instance [DecidableEq M] (state : State M) : Decidable state.Between :=
  decidable_of_iff ((∀ sender ∈ state.senders, sender = .outside) ∧ state.loop.resting = true)
    ⟨fun both => ⟨both.1, both.2⟩, fun between => ⟨between.senders, between.loop⟩⟩

instance [DecidableEq M] (state : State M) : (action : Action M) → Decidable (Sequential state action)
  | .call _ _ | .reset => inferInstanceAs (Decidable (state.Between ∧ state.resetter = .outside))
  | .deliver _ _ =>
    inferInstanceAs (Decidable (state.Between ∧ (state.resetter = .outside ∨ state.resetter = .join)))
  | .spawn | .sender _ | .drain | .loop | .resetter => .isTrue True.intro

/-- `sendMessage` is not called on a client that was reset with its flag up. -/
def CallsLive (state : State M) : Action M → Prop
  | .call _ _ => ¬ (state.clientReset = true ∧ state.eventLoopIdle = true)
  | _ => True

instance (state : State M) : (action : Action M) → Decidable (CallsLive state action)
  | .call _ _ => inferInstanceAs (Decidable (¬ _))
  | .spawn | .sender _ | .deliver _ _ | .drain | .loop | .reset | .resetter => .isTrue True.intro

/-- What the assertions of the reporter say: a thread that claimed the flag finds
a stream, a failed event finds the flag down, and none of them has failed. -/
structure State.Asserted (state : State M) : Prop where
  stream : 0 < state.holders → state.activeStream ≠ none
  busy : state.loop = .assertBusy → state.eventLoopIdle = false
  healthy : state.fault = none

/-- What `resetClient` leaves behind, in every interleaving. -/
structure Ended (state : State M) : Prop where
  exited : state.clientReset = true → state.resetter = .outside ∨ state.resetter = .store → state.exited = true
  leaving : state.resetter = .resetStream → state.exited = true
  stream : state.exited = true → state.resetter ≠ .shutdown → state.resetter ≠ .join →
    state.resetter ≠ .resetStream → state.activeStream = none

private theorem Ended.frame {before after : State M} (kept : Ended before)
    (clientReset : after.clientReset = before.clientReset) (resetter : after.resetter = before.resetter)
    (exited : after.exited = before.exited)
    (activeStream : before.activeStream = none → after.activeStream = none) : Ended after := by
  refine ⟨?_, ?_, ?_⟩
  · simpa only [clientReset, resetter, exited] using kept.exited
  · simpa only [resetter, exited] using kept.leaving
  · rw [exited, resetter]
    exact fun left shutdown join reset => activeStream (kept.stream left shutdown join reset)

private theorem Step.ended {before after : State M} {action} (moves : Step before action after)
    (kept : Ended before) (lifecycle : Lifecycle before) : Ended after := by
  cases moves with
  | senderOnce found once | loopOnce turn once =>
    exact kept.frame once.framed.clientReset once.framed.resetter once.framed.exited
      (fun none => once.framed.activeStream.trans none)
  | restart turn live =>
    refine ⟨kept.exited, kept.leaving, fun left shutdown join _ => ?_⟩
    have finished := lifecycle.ended left shutdown join
    rw [turn] at finished
    cases finished
  | lateStart turn dead old =>
    rcases old with rfl | rfl
    · exact kept.frame rfl rfl rfl id
    · exact kept.frame rfl rfl rfl (fun _ => rfl)
  | reset uncalled =>
    exact ⟨fun set _ => kept.exited set (.inl uncalled), by simp,
      fun left _ _ _ => kept.stream left (by simp [uncalled]) (by simp [uncalled]) (by simp [uncalled])⟩
  | store turn | clear turn =>
    exact ⟨by simp, by simp,
      fun left _ _ _ => kept.stream left (by simp [turn]) (by simp [turn]) (by simp [turn])⟩
  | exitAgain turn exited => exact ⟨by simp, fun _ => exited, by simp⟩
  | exit | shutdown => exact ⟨by simp, by simp, by simp⟩
  | join turn finished =>
    exact ⟨by simp, fun _ => lifecycle.shut (lifecycle.joining turn), by simp⟩
  | resetStream turn => exact ⟨fun _ _ => kept.leaving turn, by simp, fun _ _ _ _ => rfl⟩
  | _ => exact kept.frame rfl rfl rfl id

theorem Reaches.ended {state : State M} (reached : Reaches state) (healthy : state.fault = none) : Ended state := by
  revert healthy
  refine Reachable.induct reached ?_ ?_
  · intro _
    rw [constructed_eq]
    constructor <;> simp [State.withStream]
  · intro before action after reached kept executed _
    obtain ⟨healthy, moves⟩ := step_cases executed
    exact moves.ended (kept healthy) (Reaches.sound reached |>.lifecycle healthy)

def State.Unsent (state : State M) : Prop := ∀ sender ∈ state.senders, sender = .outside

/-- One at a time: a callback runs while no sender does, and `resetClient` runs
alone but for the callbacks that its join waits for. -/
structure Turns (state : State M) : Prop where
  callback : state.loop.resting = false → state.Unsent
  resetting : state.resetter ≠ .outside → state.Unsent
  joining : state.resetter ≠ .outside → state.resetter ≠ .join → state.loop.resting = true

@[simp] private theorem unsent_spawn {before : State M} :
    State.Unsent { before with senders := before.senders ++ [.outside] } ↔ before.Unsent := by
  simp [State.Unsent, or_imp]

private theorem Turns.alone {state : State M} (kept : Turns state) {thread : Nat} {sender : Sender M}
    (found : state.senders[thread]? = some sender) (inside : sender ≠ .outside) :
    state.loop.resting = true ∧ state.resetter = .outside := by
  have sending : ¬ state.Unsent := fun unsent => inside (unsent sender (List.mem_of_getElem? found))
  refine ⟨?_, ?_⟩
  · by_contra running
    exact sending (kept.callback (by simpa using running))
  · by_contra resetting
    exact sending (kept.resetting resetting)

private theorem Turns.rest {state : State M} (resting : state.loop.resting = true)
    (outside : state.resetter = .outside) : Turns state :=
  ⟨fun running => absurd resting (by simp [running]), fun called => absurd outside called,
    fun called => absurd outside called⟩

private theorem Turns.loop {before after : State M} (kept : Turns before) (turn : before.loop.resting = false)
    (senders : after.senders = before.senders) (resetter : after.resetter = before.resetter) : Turns after := by
  have unsent : after.Unsent := by
    rw [State.Unsent, senders]
    exact kept.callback turn
  refine ⟨fun _ => unsent, fun _ => unsent, fun called joining => ?_⟩
  rw [resetter] at called joining
  have resting := kept.joining called joining
  rw [turn] at resting
  cases resting

private theorem Turns.reset {before after : State M} (kept : Turns before) (called : before.resetter ≠ .outside)
    (senders : after.senders = before.senders) (loop : after.loop = before.loop)
    (resting : after.resetter ≠ .join → before.loop.resting = true) : Turns after := by
  have unsent : after.Unsent := by
    rw [State.Unsent, senders]
    exact kept.resetting called
  exact ⟨fun _ => unsent, fun _ => unsent, fun _ joining => loop ▸ resting joining⟩

private theorem Step.turns {before after : State M} {action} (moves : Step before action after)
    (kept : Turns before) (sequential : Sequential before action) : Turns after := by
  cases moves with
  | spawn =>
    exact ⟨fun running => unsent_spawn.mpr (kept.callback running),
      fun called => unsent_spawn.mpr (kept.resetting called), kept.joining⟩
  | call found => exact .rest sequential.1.loop sequential.2
  | total found | full found | room found | overflow found | push found =>
    obtain ⟨resting, outside⟩ := kept.alone found (by simp)
    exact .rest resting outside
  | senderOnce found once =>
    obtain ⟨resting, outside⟩ := kept.alone found (by simp)
    exact .rest (once.framed.loop ▸ resting) (once.framed.resetter ▸ outside)
  | deliver waiting found =>
    refine ⟨fun _ => sequential.1.senders, fun _ => sequential.1.senders, fun called joining => ?_⟩
    rcases sequential.2 with outside | join
    · exact absurd outside called
    · exact absurd join joining
  | drain waiting none dead =>
    exact ⟨fun running => (by cases running), kept.resetting, fun _ _ => rfl⟩
  | sent turn | lost turn | checkReset turn | checkOk turn | checkFailed turn | loopIdle turn | notBusy turn
  | isBusy turn | restart turn => exact kept.loop (by rw [turn]; rfl) rfl rfl
  | loopOnce turn once => exact kept.loop (by rw [turn]; rfl) once.framed.senders once.framed.resetter
  | lateStart turn dead old => rcases old with rfl | rfl <;> exact kept.loop (by rw [turn]; rfl) rfl rfl
  | reset uncalled =>
    exact ⟨fun _ => sequential.1.senders, fun _ => sequential.1.senders, fun _ _ => sequential.1.loop⟩
  | join turn finished => exact kept.reset (by simp [turn]) rfl rfl (fun _ => by rw [finished]; rfl)
  | shutdown turn => exact kept.reset (by simp [turn]) rfl rfl (fun joining => absurd rfl joining)
  | store turn | clear turn | exitAgain turn | exit turn | resetStream turn =>
    exact kept.reset (by simp [turn]) rfl rfl (fun _ => kept.joining (by simp [turn]) (by simp [turn]))

/-- On its way out of a callback without touching the stream. -/
def Loop.passive : Loop M → Bool
  | .next | .count _ _ | .check _ | .finished => true
  | _ => false

/-- A client that was reset: nobody comes near the stream, and while the flag is
up nobody sends. -/
structure Retired (state : State M) : Prop where
  unheld : ∀ sender ∈ state.senders, sender.holds = 0
  passive : state.loop.passive = true
  silent : state.eventLoopIdle = true → state.Unsent
  drained : state.eventLoopIdle = true → state.resetter ≠ .clear → state.messageBuffer = []

private theorem Retired.frame {before after : State M} (kept : Retired before)
    (senders : after.senders = before.senders) (passive : after.loop.passive = true)
    (idle : after.eventLoopIdle = before.eventLoopIdle) (buffer : after.messageBuffer = before.messageBuffer)
    (clear : before.resetter = .clear → after.resetter = .clear) : Retired after := by
  refine ⟨?_, passive, ?_, ?_⟩
  · rw [senders]
    exact kept.unheld
  · rw [idle, State.Unsent, senders]
    exact kept.silent
  · rw [idle, buffer]
    exact fun up other => kept.drained up (fun turn => other (clear turn))

private theorem Retired.sender {before after : State M} (kept : Retired before) {thread : Nat} {old : Sender M}
    (found : before.senders[thread]? = some old) (inside : old ≠ .outside) (new : Sender M)
    (unheld : new.holds = 0) (senders : after.senders = before.senders.set thread new)
    (loop : after.loop = before.loop) (idle : after.eventLoopIdle = before.eventLoopIdle) : Retired after := by
  have down : ¬ before.eventLoopIdle = true := fun up => inside (kept.silent up old (List.mem_of_getElem? found))
  refine ⟨?_, loop ▸ kept.passive, fun up => absurd (idle ▸ up) down, fun up => absurd (idle ▸ up) down⟩
  intro sender member
  rw [senders] at member
  rcases List.mem_or_eq_of_mem_set member with old | rfl
  · exact kept.unheld sender old
  · exact unheld

private theorem Step.retired {before after : State M} {action} (moves : Step before action after)
    (kept : Retired before) (live : CallsLive before action) (set : before.clientReset = true) : Retired after := by
  have passing (turn : before.loop.passive = false) : False := by
    rw [kept.passive] at turn
    cases turn
  cases moves with
  | spawn =>
    refine ⟨?_, kept.passive, fun up => unsent_spawn.mpr (kept.silent up), kept.drained⟩
    intro sender member
    rcases List.mem_append.mp member with old | new
    · exact kept.unheld sender old
    · rw [List.mem_singleton.mp new]
      rfl
  | call found =>
    have down : ¬ before.eventLoopIdle = true := fun up => live ⟨set, up⟩
    refine ⟨?_, kept.passive, fun up => absurd up down, fun up => absurd up down⟩
    intro sender member
    rcases List.mem_or_eq_of_mem_set member with old | rfl
    · exact kept.unheld sender old
    · rfl
  | total found | full found | room found | overflow found | push found =>
    exact kept.sender found (by simp) _ rfl rfl rfl rfl
  | senderOnce found once =>
    -- The exchange fails, and past the exchange there is nobody.
    have unheld := kept.unheld _ (List.mem_of_getElem? found)
    cases once with
    | busy down => exact kept.sender found (by simp) _ rfl rfl rfl rfl
    | claim up => cases kept.silent up _ (List.mem_of_getElem? found)
    | _ => cases unheld
  | @deliver index ok operation waiting found =>
    exact kept.frame rfl (by cases operation <;> rfl) rfl rfl id
  | drain | sent | lost | checkReset => exact kept.frame rfl rfl rfl rfl id
  | checkOk turn unset | checkFailed turn unset => rw [set] at unset; cases unset
  | loopIdle turn | notBusy turn | isBusy turn | restart turn | lateStart turn | loopOnce turn =>
    exact (passing (by rw [turn]; rfl)).elim
  | clear => exact ⟨kept.unheld, kept.passive, kept.silent, fun _ _ => rfl⟩
  | store turn | exitAgain turn | exit turn | shutdown turn | join turn | resetStream turn | reset turn =>
    exact kept.frame rfl kept.passive rfl rfl (fun clear => by simp [turn] at clear)

/-- A thread that nothing keeps from the assertion any more. -/
def Sender.bound (idle : Bool) (buffer : ValueBuffer M) : Sender M → Prop
  | .total _ | .size _ => idle = true ∧ buffer = []
  | .push _ | .once .exchange => idle = true
  | .once .assertStream => True
  | _ => False

/-- One call is on its way to the assertion, and there is no stream. -/
structure Bound (state : State M) (thread : Nat) (sender : Sender M) : Prop where
  found : state.senders[thread]? = some sender
  others : ∀ other sender, state.senders[other]? = some sender → other ≠ thread → sender = .outside
  bound : sender.bound state.eventLoopIdle state.messageBuffer
  outside : state.resetter = .outside
  finished : state.loop = .finished
  stream : state.activeStream = none

def Doomed (state : State M) : Prop :=
  state.fault = some .streamAssertion ∨ ∃ thread sender, Bound state thread sender

private theorem Bound.inside {state : State M} {thread : Nat} {sender : Sender M} (bound : Bound state thread sender) :
    sender ≠ .outside := by
  rintro rfl
  exact bound.bound

private theorem Bound.move {before after : State M} {thread : Nat} {sender : Sender M}
    (bound : Bound before thread sender) (new : Sender M) (senders : after.senders = before.senders.set thread new)
    (next : new.bound after.eventLoopIdle after.messageBuffer) (resetter : after.resetter = before.resetter)
    (loop : after.loop = before.loop) (activeStream : after.activeStream = before.activeStream) : Doomed after := by
  refine .inr ⟨thread, new, ?_, ?_, next, resetter.trans bound.outside, loop.trans bound.finished,
    activeStream.trans bound.stream⟩
  · rw [senders, List.getElem?_set_self (List.getElem?_eq_some_iff.mp bound.found).1]
  · intro other sender found different
    rw [senders, List.getElem?_set_ne different.symm] at found
    exact bound.others other sender found different

/-- Only the bound thread moves, and it moves on to the assertion. -/
private theorem Bound.step {before after : State M} {thread : Nat} {sender : Sender M} {action}
    (bound : Bound before thread sender) (moves : Step before action after) (sequential : Sequential before action) :
    Doomed after := by
  have busy : ¬ before.Between := fun rest =>
    bound.inside (rest.senders sender (List.mem_of_getElem? bound.found))
  have only {other : Nat} {position : Sender M} (found : before.senders[other]? = some position)
      (inside : position ≠ .outside) : other = thread ∧ position = sender := by
    have same : other = thread := by
      by_contra different
      exact inside (bound.others other position found different)
    exact ⟨same, Option.some.inj (found.symm.trans (same ▸ bound.found))⟩
  cases moves with
  | spawn =>
    refine .inr ⟨thread, sender, ?_, ?_, bound.bound, bound.outside, bound.finished, bound.stream⟩
    · rw [List.getElem?_append_left (List.getElem?_eq_some_iff.mp bound.found).1, bound.found]
    · intro other position found different
      by_cases inside : other < before.senders.length
      · rw [List.getElem?_append_left inside] at found
        exact bound.others other position found different
      · rw [List.getElem?_append_right (Nat.le_of_not_lt inside)] at found
        exact List.mem_singleton.mp (List.mem_of_getElem? found)
  | call | deliver | reset => exact absurd sequential.1 busy
  | total found | overflow found | push found =>
    obtain ⟨rfl, rfl⟩ := only found (by simp)
    have next := bound.bound
    first | exact next.elim | exact bound.move _ rfl next rfl rfl rfl
  | full found pending =>
    obtain ⟨rfl, rfl⟩ := only found (by simp)
    rw [bound.bound.2] at pending
    cases pending
  | room found =>
    obtain ⟨rfl, rfl⟩ := only found (by simp)
    exact bound.move _ rfl bound.bound.1 rfl rfl rfl
  | senderOnce found once =>
    obtain ⟨rfl, rfl⟩ := only found (by simp)
    have next := bound.bound
    cases once with
    | claim up => exact bound.move _ rfl True.intro rfl rfl rfl
    | busy down => rw [show before.eventLoopIdle = true from next] at down; cases down
    | present active => rw [bound.stream] at active; cases active
    | absent => exact .inl rfl
    | _ => exact next.elim
  | drain turn | sent turn | lost turn | checkReset turn | checkOk turn | checkFailed turn | loopIdle turn
  | notBusy turn | isBusy turn | restart turn | lateStart turn | loopOnce turn =>
    rw [bound.finished] at turn
    cases turn
  | store turn | clear turn | exitAgain turn | exit turn | shutdown turn | join turn | resetStream turn =>
    rw [bound.outside] at turn
    cases turn

/-- What a sequential run keeps while its calls meet the condition. -/
structure Alternating (state : State M) : Prop where
  reached : Reaches state
  turns : Turns state
  retired : state.clientReset = true → Retired state
  healthy : state.fault = none

private theorem Alternating.constructed : Alternating (constructed : State M) := by
  refine ⟨.refl _, ?_, ?_, ?_⟩ <;> rw [constructed_eq]
  · exact ⟨fun _ _ member => (by cases member), fun called => absurd rfl called, fun called => absurd rfl called⟩
  · intro set
    cases set
  · rfl

private theorem Step.retires {before after : State M} {action} (moves : Step before action after)
    (turns : Turns before) (unset : before.clientReset = false) (set : after.clientReset = true) : Retired after := by
  cases moves with
  | store turn =>
    have unsent := turns.resetting (by simp [turn])
    have resting := turns.joining (by simp [turn]) (by simp [turn])
    refine ⟨fun sender member => by rw [unsent sender member]; rfl, ?_, fun _ => unsent, fun _ other => absurd rfl other⟩
    cases loop : before.loop <;> rw [loop] at resting <;> first | rfl | cases resting
  | senderOnce found once | loopOnce turn once =>
    rw [once.framed.clientReset, unset] at set
    cases set
  | lateStart turn dead old =>
    rcases old with rfl | rfl <;> exact absurd (unset.symm.trans set) (by simp)
  | _ => exact absurd (unset.symm.trans set) (by simp)

private theorem Retired.healthy {before after : State M} {action} (kept : Retired before)
    (moves : Step before action after) (healthy : before.fault = none) : after.fault = none := by
  have passing (turn : before.loop.passive = false) : False := by
    rw [kept.passive] at turn
    cases turn
  cases moves with
  | senderOnce found once =>
    have unheld := kept.unheld _ (List.mem_of_getElem? found)
    cases once with
    | busy | claim => exact healthy
    | _ => cases unheld
  | loopOnce turn | notBusy turn | lateStart turn => exact (passing (by rw [turn]; rfl)).elim
  | _ => exact healthy

private theorem Alternating.next {before after : State M} {action} (kept : Alternating before)
    (sequential : Sequential before action) (live : CallsLive before action)
    (executed : step before action = some after) : Alternating after := by
  obtain ⟨healthy, moves⟩ := step_cases executed
  refine ⟨kept.reached.next executed, moves.turns kept.turns sequential, fun set => ?_, ?_⟩
  · cases unset : before.clientReset with
    | false => exact moves.retires kept.turns unset set
    | true => exact moves.retired (kept.retired unset) live unset
  · cases unset : before.clientReset with
    | false => exact moves.healthy kept.reached.sound healthy unset
    | true => exact (kept.retired unset).healthy moves healthy

private theorem Alternating.asserted {state : State M} (kept : Alternating state) : state.Asserted := by
  have sound := kept.reached.sound
  refine ⟨fun held => ?_, fun turn => ?_, kept.healthy⟩
  · cases set : state.clientReset with
    | false =>
      obtain ⟨stream, active⟩ := (sound.lifecycle kept.healthy).streams set
      simp [active]
    | true =>
      have retired := kept.retired set
      have senders : Pool.total Sender.holds state.senders = 0 := Pool.total_zero retired.unheld
      have loop : state.loop.holds = 0 := by
        have passive := retired.passive
        cases turn : state.loop <;> rw [turn] at passive <;> first | rfl | cases passive
      rw [State.holders, senders, loop] at held
      cases held
  · have sole := sound.permits_le
    simp only [State.permits, State.operations, turn, Loop.handles] at sole
    cases idle : state.eventLoopIdle with
    | false => rfl
    | true =>
      simp only [idle, Bool.toNat_true] at sole
      omega

/-- A call after the reset, with the flag up, is bound for the assertion. -/
private theorem Alternating.breach {before after : State M} {action} (kept : Alternating before)
    (sequential : Sequential before action) (dead : ¬ CallsLive before action)
    (executed : step before action = some after) : Doomed after := by
  obtain ⟨healthy, moves⟩ := step_cases executed
  cases moves with
  | @call thread message found =>
    obtain ⟨set, up⟩ := Classical.not_not.mp dead
    obtain ⟨between, outside⟩ := sequential
    have ended := kept.reached.ended healthy
    have exited := ended.exited set (.inl outside)
    refine .inr ⟨thread, .total message, ?_, ?_, ⟨up, (kept.retired set).drained up (by simp [outside])⟩, outside,
      (kept.reached.sound.lifecycle healthy).ended exited (by simp [outside]) (by simp [outside]),
      ended.stream exited (by simp [outside]) (by simp [outside]) (by simp [outside])⟩
    · exact List.getElem?_set_self (List.getElem?_eq_some_iff.mp found).1
    · intro other sender found different
      rw [List.getElem?_set_ne different.symm] at found
      exact between.senders sender (List.mem_of_getElem? found)
  | _ => exact absurd True.intro dead

private theorem Doomed.next {before after : State M} {action} (doomed : Doomed before)
    (sequential : Sequential before action) (executed : step before action = some after) : Doomed after := by
  obtain ⟨healthy, moves⟩ := step_cases executed
  rcases doomed with faulted | ⟨thread, sender, bound⟩
  · rw [healthy] at faulted
    cases faulted
  · exact bound.step moves sequential

/-- In a sequential run whose calls meet the condition every assertion holds. A
run that ends between calls and broke it has failed one. -/
theorem assertions_hold {state : State M} {actions : List (Action M)}
    (executed : exec step constructed actions = some state) (sequential : Along step Sequential constructed actions) :
    (Along step CallsLive constructed actions → state.Asserted) ∧
    (state.Between ∨ state.fault ≠ none → state.Asserted → Along step CallsLive constructed actions) := by
  rcases kept_or_doomed (fun _ _ _ => Alternating.next) (fun _ _ _ => Alternating.breach)
    (fun _ _ _ => Doomed.next) .constructed sequential executed with ⟨along, kept⟩ | ⟨broken, doomed⟩
  · exact ⟨fun _ => kept.asserted, fun _ _ => along⟩
  · refine ⟨fun live => absurd live broken, fun ended asserted => ?_⟩
    rcases doomed with faulted | ⟨thread, sender, bound⟩
    · rw [asserted.healthy] at faulted
      cases faulted
    · rcases ended with between | faulted
      · exact absurd (between.senders sender (List.mem_of_getElem? bound.found)) bound.inside
      · exact absurd asserted.healthy faulted

/-- A reset while the first StartCall is outstanding, and a message after it. -/
def resetBusyRun : List (Action Nat) :=
  [.spawn, .reset, .resetter, .resetter, .resetter, .resetter, .deliver 0 false, .loop, .drain, .resetter, .resetter,
    .call 0 7, .sender 0, .sender 0, .sender 0, .sender 0]

theorem assertions_hold_reset :
    ∃ state : State Nat, exec step constructed resetBusyRun = some state ∧ state.clientReset = true ∧
      state.messageBuffer = [7] ∧ state.Asserted :=
  ⟨_, rfl, rfl, rfl, (assertions_hold (show exec step constructed resetBusyRun = some _ from rfl) (by decide)).1
    (by decide)⟩

/-- A reset while the flag is up, and a message after it. -/
def resetIdleRun : List (Action Nat) :=
  [.spawn, .deliver 0 true, .loop, .loop, .loop, .loop, .loop, .loop, .reset, .resetter, .resetter, .resetter,
    .resetter, .drain, .resetter, .resetter, .call 0 7, .sender 0, .sender 0, .sender 0, .sender 0, .sender 0]

theorem assertion_fails_after_reset :
    ∃ state : State Nat, exec step constructed resetIdleRun = some state ∧
      Along step Sequential constructed resetIdleRun ∧ state.activeStream = none ∧
      state.senders = [.once .assertStream] ∧ state.fault = some .streamAssertion :=
  ⟨_, rfl, by decide, rfl, rfl, rfl⟩

end Cpp2Sky.AsyncClient
