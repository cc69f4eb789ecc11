import Mathlib.Data.List.Induction
import Cpp2Sky.Proofs.ReporterQueue

/-! The order of one thread. Whatever the other threads do in between, and over
however many streams, what a thread sent is written in the order of its calls. -/

namespace Cpp2Sky.AsyncClient
open Runs

variable {M : Type} {before after : State M} {actions : List (Action M)} {owner : M → Nat}

def Action.sends (thread : Nat) : Action M → Option M
  | .call other message => if other = thread then some message else none
  | .spawn | .sender _ | .deliver _ _ | .drain | .loop | .reset | .resetter => none

/-- A message that its thread has still to push. -/
def Sender.ahead : Sender M → List M
  | .total message | .size message | .push message => [message]
  | .outside | .overflow _ | .once _ => []

def ahead (senders : List (Sender M)) (thread : Nat) : List M := senders[thread]?.elim [] Sender.ahead

/-- Messages are told apart by the threads that sent them, and those of a thread
are pushed in the order of its calls. -/
structure Threaded (owner : M → Nat) (actions : List (Action M)) (state : State M) : Prop where
  own : ∀ thread, ∀ message ∈ ahead state.senders thread, owner message = thread
  order : ∀ thread, ((state.accepted.filter fun message => owner message = thread) ++ ahead state.senders thread).Sublist
    (actions.filterMap (Action.sends thread))

private theorem ahead_set {senders : List (Sender M)} {thread : Nat} {old : Sender M}
    (found : senders[thread]? = some old) (new : Sender M) (other : Nat) :
    ahead (senders.set thread new) other = if thread = other then new.ahead else ahead senders other := by
  by_cases same : thread = other
  · subst same
    rw [if_pos rfl, ahead, List.getElem?_set_self (List.getElem?_eq_some_iff.mp found).1]
    rfl
  · rw [if_neg same, ahead, List.getElem?_set_ne same, ahead]

private theorem ahead_found {senders : List (Sender M)} {thread : Nat} {sender : Sender M}
    (found : senders[thread]? = some sender) : ahead senders thread = sender.ahead := by
  rw [ahead, found]
  rfl

private theorem ahead_spawn (senders : List (Sender M)) (thread : Nat) :
    ahead (senders ++ [.outside]) thread = ahead senders thread := by
  unfold ahead
  by_cases inside : thread < senders.length
  · rw [List.getElem?_append_left inside]
  · have absent : senders[thread]? = none := List.getElem?_eq_none (by omega)
    rw [absent]
    cases new : (senders ++ [.outside])[thread]? with
    | none => rfl
    | some sender =>
      have last := List.mem_of_getElem? (List.getElem?_append_right (Nat.le_of_not_lt inside) ▸ new)
      rw [List.mem_singleton.mp last]
      rfl

private theorem Threaded.same (kept : Threaded owner actions before) {action : Action M}
    (senders : ∀ thread, ahead after.senders thread = ahead before.senders thread)
    (accepted : after.accepted = before.accepted) : Threaded owner (actions ++ [action]) after := by
  refine ⟨?_, ?_⟩
  · intro thread message member
    rw [senders] at member
    exact kept.own thread message member
  · intro thread
    rw [senders, accepted, List.filterMap_append]
    exact (kept.order thread).trans (List.sublist_append_left _ _)

/-- A thread that goes on has no more ahead of it than before. -/
private theorem Threaded.thread (kept : Threaded owner actions before) {action : Action M} {thread : Nat} {old new : Sender M}
    (found : before.senders[thread]? = some old) (senders : after.senders = before.senders.set thread new)
    (accepted : after.accepted = before.accepted) (less : new.ahead.Sublist old.ahead) :
    Threaded owner (actions ++ [action]) after := by
  have fewer : ∀ other, (ahead after.senders other).Sublist (ahead before.senders other) := by
    intro other
    rw [senders, ahead_set found]
    split
    next same =>
      rw [← same, ahead_found found]
      exact less
    next => exact List.Sublist.refl _
  refine ⟨?_, ?_⟩
  · intro other message member
    exact kept.own other message ((fewer other).mem member)
  · intro other
    rw [accepted, List.filterMap_append]
    apply List.Sublist.trans _ (List.sublist_append_left _ _)
    exact ((List.Sublist.refl _).append (fewer other)).trans (kept.order other)

private theorem Threaded.called (kept : Threaded owner actions before) {thread : Nat} {message : M}
    (found : before.senders[thread]? = some .outside) (owned : owner message = thread) :
    Threaded owner (actions ++ [.call thread message])
      { before with senders := before.senders.set thread (.total message) } := by
  refine ⟨?_, ?_⟩
  · intro other sent member
    simp only [ahead_set found] at member
    split at member
    next same =>
      rw [List.mem_singleton.mp member, owned]
      exact same
    next => exact kept.own other sent member
  · intro other
    have order := kept.order other
    simp only [ahead_set found, List.filterMap_append]
    by_cases same : thread = other
    · subst same
      rw [ahead_found found] at order
      rw [if_pos rfl]
      apply List.Sublist.append _ _
      · simpa [Sender.ahead] using order
      · simp [Sender.ahead, Action.sends]
    · rw [if_neg same]
      exact order.trans (List.sublist_append_left _ _)

private theorem Threaded.pushed (kept : Threaded owner actions before) {action : Action M} {thread : Nat} {message : M}
    (found : before.senders[thread]? = some (.push message)) (buffer : List M) :
    Threaded owner (actions ++ [action])
      { before with
        messageBuffer := buffer
        accepted := before.accepted ++ [message]
        senders := before.senders.set thread (.once .exchange) } := by
  have owned : owner message = thread := by
    apply kept.own thread message
    rw [ahead_found found]
    exact List.mem_singleton_self _
  refine ⟨?_, ?_⟩
  · intro other sent member
    simp only [ahead_set found] at member
    split at member
    next => cases member
    next => exact kept.own other sent member
  · intro other
    have order := kept.order other
    simp only [ahead_set found, List.filterMap_append, List.filter_append]
    apply List.Sublist.trans _ (List.sublist_append_left _ _)
    by_cases same : thread = other
    · subst same
      rw [ahead_found found] at order
      simpa [Sender.ahead, owned] using order
    · have elsewhere : ([message].filter fun message => owner message = other) = [] := by simp [owned, same]
      rw [if_neg same, elsewhere, List.append_nil]
      exact order

private theorem Step.threaded {action : Action M} (moves : Step before action after) (kept : Threaded owner actions before)
    (owned : ∀ thread message, action = .call thread message → owner message = thread) :
    Threaded owner (actions ++ [action]) after := by
  cases moves with
  | spawn => exact kept.same (ahead_spawn _) rfl
  | @call thread message found => exact kept.called found (owned thread message rfl)
  | total found | room found => exact kept.thread found rfl rfl (List.Sublist.refl _)
  | full found | overflow found => exact kept.thread found rfl rfl (List.nil_sublist _)
  | push found => exact kept.pushed found _
  | @senderOnce thread position moved following found once =>
    refine kept.thread found (by rw [once.framed.senders]) once.framed.accepted ?_
    cases following <;> exact List.Sublist.refl _
  | loopOnce turn once => exact kept.same (fun _ => by rw [once.framed.senders]) once.framed.accepted
  | lateStart turn dead old => rcases old with rfl | rfl <;> exact kept.same (fun _ => rfl) rfl
  | _ => exact kept.same (fun _ => rfl) rfl

private theorem threaded_run {state : State M} (executed : exec step constructed actions = some state)
    (owned : ∀ thread message, Action.call thread message ∈ actions → owner message = thread) :
    Threaded owner actions state := by
  induction actions using List.reverseRecOn generalizing state with
  | nil =>
    cases executed
    refine ⟨?_, ?_⟩
    · intro thread message member
      rw [constructed_eq] at member
      cases member
    · intro thread
      rw [constructed_eq]
      exact List.Sublist.refl _
  | append_singleton actions action ih =>
    obtain ⟨before, ran, moved⟩ := exec_concat.mp executed
    have kept := ih ran fun thread message member => owned thread message (List.mem_append_left _ member)
    apply (step_cases moved).2.threaded kept
    rintro thread message rfl
    exact owned thread message (List.mem_append_right _ (List.mem_singleton_self _))

theorem thread_order {state : State M} (executed : exec step constructed actions = some state) (before : state.BeforeReset)
    (owned : ∀ thread message, Action.call thread message ∈ actions → owner message = thread) (thread : Nat) :
    ((state.written.map Prod.snd).filter fun message => owner message = thread).Sublist
      (actions.filterMap (Action.sends thread)) := by
  have reached : Reaches state := ⟨actions, executed⟩
  have accepted : state.written.map Prod.snd <+: state.accepted := by
    rw [← reached.channel before.unset]
    exact state.channel.handed_prefix
  have kept : Threaded owner actions state := threaded_run executed owned
  have pushed := (List.sublist_append_left _ _).trans (kept.order thread)
  exact (accepted.filter _).sublist.trans pushed

/-- The first message of two threads is lost with its stream, and the others go
out on the next one. -/
def interleavedRun : List (Action (Nat × Nat)) :=
  [.spawn, .spawn, .deliver 0 true, .loop, .loop, .loop, .loop, .loop, .loop,
    .call 0 (0, 7), .sender 0, .sender 0, .sender 0, .sender 0, .sender 0, .sender 0, .call 1 (1, 7), .sender 1, .sender 1,
    .sender 0, .sender 1, .call 0 (0, 8), .sender 0, .sender 1, .sender 0, .sender 0, .sender 0,
    .deliver 0 false, .loop, .loop, .loop, .loop, .deliver 0 true, .loop, .loop, .loop, .loop, .loop, .loop,
    .deliver 0 true, .loop, .loop, .loop, .loop, .loop, .loop, .loop]

theorem thread_order_interleaved :
    ∃ state : State (Nat × Nat), exec step constructed interleavedRun = some state ∧
      state.written.map Prod.snd = [(0, 7), (1, 7), (0, 8)] ∧
      ∀ thread, ((state.written.map Prod.snd).filter fun message => message.1 = thread).Sublist
        (interleavedRun.filterMap (Action.sends thread)) := by
  have owned : ∀ thread message, Action.call thread message ∈ interleavedRun → message.1 = thread := by
    intro thread message member
    simp only [interleavedRun, List.mem_cons, Action.call.injEq, reduceCtorEq, false_or, List.not_mem_nil, or_false] at member
    rcases member with ⟨rfl, rfl⟩ | ⟨rfl, rfl⟩ | ⟨rfl, rfl⟩ <;> rfl
  exact ⟨_, rfl, rfl, thread_order (show exec step constructed interleavedRun = some _ from rfl) ⟨rfl, rfl⟩ owned⟩

end Cpp2Sky.AsyncClient
