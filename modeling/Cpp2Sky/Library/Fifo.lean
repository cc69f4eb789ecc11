import Mathlib.Data.List.Basic

/-! A first in, first out channel: messages are accepted at one end and handed
over at the other. A step is labelled with the messages it accepts. -/

namespace Cpp2Sky.Fifo

universe u

structure Channel (M : Type u) where
  handed : List M
  pending : List M

variable {M : Type u}

def Channel.accepted (channel : Channel M) : List M := channel.handed ++ channel.pending

inductive Step (before : Channel M) : List M → Channel M → Prop where
  | stay : Step before [] before
  | accept (message : M) : Step before [message] { before with pending := before.pending ++ [message] }
  | hand {message : M} {rest : List M} (first : before.pending = message :: rest) :
      Step before [] ⟨before.handed ++ [message], rest⟩

theorem Step.accepted {before after : Channel M} {new : List M} (step : Step before new after) :
    after.accepted = before.accepted ++ new := by
  cases step with
  | stay => simp
  | accept message => simp [Channel.accepted]
  | hand first => simp [Channel.accepted, first]

theorem Step.handed {before after : Channel M} {new : List M} (step : Step before new after) :
    before.handed <+: after.handed := by
  cases step with
  | stay | accept => exact List.prefix_refl _
  | hand => exact List.prefix_append ..

theorem Channel.handed_prefix (channel : Channel M) : channel.handed <+: channel.accepted :=
  List.prefix_append ..

end Cpp2Sky.Fifo
