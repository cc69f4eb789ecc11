import Cpp2Sky.Library.Ledger
import Cpp2Sky.Proofs.ReporterAccounts
import Cpp2Sky.Proofs.ReporterProgress

/-! The accounts of a reporter over its whole life, `resetClient` included. What
is lost uncounted is what the buffer held when it was cleared, message by
message, and the others keep their order. -/

namespace Cpp2Sky.AsyncClient
open Runs

variable {M : Type} {before after state : State M} {action : Action M} {actions : List (Action M)} {gone : Multiset M}

/-- What a run from the constructor on threw away. -/
def discarded (actions : List (Action M)) : Multiset M := tally step State.discards constructed actions

/-- Where the messages are, with those that were thrown away. -/
structure State.Placed (state : State M) (gone : Multiset M) : Prop where
  submitted : (state.submitted : Multiset M) = state.placed + state.carried + gone
  accepted : (state.accepted : Multiset M) = state.channel.accepted + gone
  order : state.channel.accepted.Sublist state.accepted
  unset : state.clientReset = false → gone = 0

private theorem discards_none (stays : action = .resetter → before.resetter ≠ .clear) : before.discards action = 0 := by
  cases action with
  | resetter => exact if_neg (stays rfl)
  | _ => rfl

/-- The clear takes the buffer away from the end of the channel. -/
private theorem Step.cleared (moves : Step before action after) (resets : action = .resetter) (turn : before.resetter = .clear) :
    before.discards action = before.messageBuffer ∧ after.accepted = before.accepted ∧
      before.channel.accepted = after.channel.accepted ++ before.messageBuffer := by
  cases moves with
  | clear =>
    refine ⟨if_pos turn, rfl, ?_⟩
    simp [State.channel, Fifo.Channel.accepted, State.popped]
  | store other | exitAgain other | exit other | shutdown other | join other | resetStream other =>
    rw [turn] at other
    cases other
  | _ => cases resets

private theorem Step.placed (moves : Step before action after) (kept : before.Placed gone) (sound : Sound before)
    (healthy : before.fault = none) : after.Placed (gone + before.discards action) := by
  have submitted : (after.submitted : Multiset M) = after.placed + after.carried + (gone + before.discards action) := by
    apply add_left_cancel (a := before.placed + before.carried)
    calc
      before.placed + before.carried + after.submitted =
          after.placed + after.carried + before.discards action + before.submitted := moves.accounts.symm
      _ = before.placed + before.carried + (after.placed + after.carried + (gone + before.discards action)) := by
        rw [kept.submitted]
        abel
  have unset : after.clientReset = false → gone + before.discards action = 0 := by
    intro unset
    have unset := moves.unset unset
    rw [kept.unset unset, zero_add]
    apply discards_none
    intro _ turn
    have early := (sound.lifecycle healthy).uncalled unset
    simp [turn] at early
  by_cases clears : action = .resetter ∧ before.resetter = .clear
  · obtain ⟨discards, accepted, channel⟩ := moves.cleared clears.1 clears.2
    refine ⟨submitted, ?_, ?_, unset⟩
    · rw [accepted, kept.accepted, channel, discards, ← Multiset.coe_add]
      abel
    · have order := kept.order
      rw [accepted]
      rw [channel] at order
      exact (List.sublist_append_left _ _).trans order
  · have stays : action = .resetter → before.resetter ≠ .clear := fun resets turn => clears ⟨resets, turn⟩
    obtain ⟨new, refined, pushed⟩ := moves.channel_unless_clear sound stays
    refine ⟨submitted, ?_, ?_, unset⟩
    · rw [pushed, refined.accepted, discards_none stays, ← Multiset.coe_add, kept.accepted, ← Multiset.coe_add]
      abel
    · rw [pushed, refined.accepted]
      exact kept.order.append (List.Sublist.refl new)

private theorem placed_run (executed : exec step constructed actions = some state) : state.Placed (discarded actions) := by
  refine tally_invariant ?_ ?_ executed
  · rw [constructed_eq]
    exact ⟨rfl, rfl, List.Sublist.refl _, fun _ => rfl⟩
  · intro before gone action after reached kept moved
    obtain ⟨healthy, moves⟩ := step_cases moved
    exact moves.placed kept (Reaches.sound reached) healthy

theorem State.AtRest.placed (rest : state.AtRest) :
    state.placed = state.sent + state.dropped + state.messageBuffer := by
  rw [State.placed, State.inflight, rest.outstanding]
  simp

/-- The accounts of a whole run: between calls on the counters, and message by
message when nothing is left to do. -/
structure State.Accounted (state : State M) (gone : Multiset M) : Prop extends state.Placed gone where
  counters : state.Between → state.messagesTotal = state.messagesSent + state.messagesDropped +
    UInt64.ofNat (state.messageBuffer.length + Multiset.card state.inflight + Multiset.card gone)
  rested : state.AtRest → (state.submitted : Multiset M) = state.sent + state.dropped + state.messageBuffer + gone

theorem losses_accounted (executed : exec step constructed actions = some state) : state.Accounted (discarded actions) := by
  have placed := placed_run executed
  have counted := Reaches.counted ⟨actions, executed⟩
  refine ⟨placed, ?_, ?_⟩
  · intro between
    have sizes := congrArg Multiset.card placed.submitted
    simp only [between.carried, State.placed, Multiset.card_add, Multiset.coe_card, Multiset.card_zero] at sizes
    rw [counted.total, counted.sent, counted.dropped, sizes]
    simp only [UInt64.ofNat_add, add_zero, UInt64.add_assoc]
  · intro rest
    rw [placed.submitted, rest.between.carried, rest.placed, add_zero]

/-- One message sent, one lost with its stream, one cleared, and one too late. -/
def shutdownRun : List (Action Nat) :=
  [.spawn, .deliver 0 true, .loop, .loop, .loop, .loop, .loop, .loop,
    .call 0 7, .sender 0, .sender 0, .sender 0, .sender 0, .sender 0, .sender 0, .sender 0,
    .call 0 8, .sender 0, .sender 0, .sender 0, .sender 0, .call 0 9, .sender 0, .sender 0, .sender 0, .sender 0,
    .deliver 0 true, .loop, .loop, .loop, .loop, .loop, .loop, .loop,
    .reset, .resetter, .resetter, .resetter, .resetter, .deliver 0 false, .loop, .loop, .drain, .resetter, .resetter,
    .call 0 10, .sender 0, .sender 0, .sender 0, .sender 0]

def shutDown : State Nat := (exec step constructed shutdownRun).getD {}

theorem losses_accounted_shutdown :
    shutDown.Between ∧ shutDown.AtRest ∧ shutDown.submitted = [7, 8, 9, 10] ∧ shutDown.sent = [7] ∧
      shutDown.dropped = [8] ∧ shutDown.messageBuffer = [10] ∧ shutDown.Accounted (discarded shutdownRun) :=
  have executed : exec step (constructed : State Nat) shutdownRun = some shutDown := rfl
  have rest : shutDown.AtRest := ⟨by decide, rfl, rfl, .inr rfl⟩
  ⟨rest.between, rest, rfl, rfl, rfl, rfl, losses_accounted executed⟩

end Cpp2Sky.AsyncClient
