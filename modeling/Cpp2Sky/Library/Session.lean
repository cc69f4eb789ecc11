import Cpp2Sky.Library.Observation

/-! Messages sent over a row of streams, one operation at a time. A stream takes
writes once it is connected and until something on it fails; then the next
stream is connected. -/

namespace Cpp2Sky.Session
open Runs

universe u
variable {M : Type u}

inductive Event (M : Type u) where
  | connect (stream : Nat)
  | connected (stream : Nat) (ok : Bool)
  | write (stream : Nat) (message : M)
  | written (stream : Nat) (message : M) (ok : Bool)

inductive Phase (M : Type u) where
  | connecting (stream : Nat)
  | ready (stream : Nat)
  | writing (stream : Nat) (message : M)
  | broken (stream : Nat)

inductive Step : Phase M → Event M → Phase M → Prop where
  | connected {stream} : Step (.connecting stream) (.connected stream true) (.ready stream)
  | refused {stream} : Step (.connecting stream) (.connected stream false) (.broken stream)
  | write {stream message} : Step (.ready stream) (.write stream message) (.writing stream message)
  | written {stream message} : Step (.writing stream message) (.written stream message true) (.ready stream)
  | lost {stream message} : Step (.writing stream message) (.written stream message false) (.broken stream)
  | connect {stream} : Step (.broken stream) (.connect (stream + 1)) (.connecting (stream + 1))

def Event.stream : Event M → Nat
  | .connect stream | .connected stream _ | .write stream _ | .written stream _ _ => stream

def Phase.stream : Phase M → Nat
  | .connecting stream | .ready stream | .writing stream _ | .broken stream => stream

def Event.failed : Event M → Bool
  | .connected _ false | .written _ _ false => true
  | _ => false

def Event.wrote : Event M → Option (Nat × M)
  | .write stream message => some (stream, message)
  | _ => none

def Event.acknowledged : Event M → Option M
  | .written _ message true => some message
  | _ => none

/-- Each stream before this one may have cost a message, and so may this one
where a write is under way or something failed. -/
def Phase.owed : Phase M → Nat
  | .connecting stream | .ready stream => stream
  | .writing stream _ | .broken stream => stream + 1

/-- What a phase still owes of the messages that were written. -/
def Phase.open_ : Phase M → List M
  | .writing _ message => [message]
  | .connecting _ | .ready _ | .broken _ => []

variable {phase final : Phase M} {history : List (Event M)}

/-- Acknowledgements come in the order of the writes. -/
theorem acknowledged_sublist (accepted : Accepts Step phase history final) :
    (history.filterMap Event.acknowledged ++ final.open_).Sublist
      (phase.open_ ++ (history.filterMap Event.wrote).map Prod.snd) := by
  induction accepted with
  | done => simp
  | next first others ih =>
    cases first with
    | connected | refused | connect | write => exact ih
    | @written stream message => exact ih.cons_cons message
    | @lost stream message => exact List.Sublist.cons message ih

private theorem Step.owed {middle : Phase M} {event : Event M} (first : Step phase event middle) :
    event.wrote.toList.length + phase.owed ≤ event.acknowledged.toList.length + middle.owed := by
  cases first <;> simp [Event.wrote, Event.acknowledged, Phase.owed, Nat.add_comm]

/-- Each stream loses one message at most. -/
theorem losses_le (accepted : Accepts Step phase history final) :
    (history.filterMap Event.wrote).length + phase.owed ≤ (history.filterMap Event.acknowledged).length + final.owed := by
  induction accepted with
  | done => simp
  | next first others ih =>
    have one := first.owed
    rw [List.filterMap_eq_flatMap_toList, List.filterMap_eq_flatMap_toList] at ih ⊢
    simp only [List.flatMap_cons, List.length_append]
    omega

/-- No event is about a stream older than the present one. -/
theorem stream_le (accepted : Accepts Step phase history final) : ∀ event ∈ history, phase.stream ≤ event.stream := by
  induction accepted with
  | done => simp
  | next first others ih =>
    refine List.forall_mem_cons.mpr ?_
    cases first with
    | connect => exact ⟨Nat.le_succ _, fun event member => Nat.le_trans (Nat.le_succ _) (ih event member)⟩
    | _ => exact ⟨Nat.le_refl _, ih⟩

/-- After a failure nothing more happens on that stream. -/
theorem failed_last {first rest : List (Event M)} {event : Event M}
    (accepted : Accepts Step phase (first ++ event :: rest) final) (failed : event.failed = true) :
    ∀ later ∈ rest, event.stream < later.stream := by
  obtain ⟨middle, _, behind⟩ := accepted.split
  cases behind with
  | next moved others =>
    cases moved with
    | connected | write | written | connect => cases failed
    | refused | lost =>
      cases others with
      | done => simp
      | next reconnects later =>
        cases reconnects with
        | connect =>
          exact List.forall_mem_cons.mpr ⟨Nat.lt_succ_self _, stream_le later⟩

end Cpp2Sky.Session
