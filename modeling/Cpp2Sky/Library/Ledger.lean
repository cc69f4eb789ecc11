import Mathlib.Algebra.Group.Basic
import Mathlib.Data.List.Induction
import Cpp2Sky.Library.Runs

/-! What the steps of a run come to in all. The sum stands beside the state and
not in it, so that an invariant can speak of what a machine does not remember. -/

namespace Cpp2Sky.Runs

universe u v w
variable {σ : Type u} {α : Type v} {μ : Type w} [AddCommMonoid μ] {step : σ → α → Option σ} {amount : σ → α → μ}

def tally (step : σ → α → Option σ) (amount : σ → α → μ) : σ → List α → μ
  | _, [] => 0
  | state, action :: rest =>
    amount state action + (step state action).elim 0 fun next => tally step amount next rest

theorem tally_concat {start middle : σ} {actions : List α} (action : α) (executed : exec step start actions = some middle) :
    tally step amount start (actions ++ [action]) = tally step amount start actions + amount middle action := by
  induction actions generalizing start with
  | nil =>
    obtain rfl : start = middle := Option.some.inj executed
    cases moved : step start action <;> simp [tally, moved]
  | cons first rest ih =>
    obtain ⟨next, moved, remaining⟩ := exec_cons_some executed
    simp only [List.cons_append, tally, moved, Option.elim_some]
    rw [ih remaining, add_assoc]

/-- An invariant of a state and of what the run to it came to. -/
theorem tally_invariant {holds : σ → μ → Prop} {start final : σ} {actions : List α} (initial : holds start 0)
    (preserved : ∀ state sum action next, Reachable step start state → holds state sum →
      step state action = some next → holds next (sum + amount state action))
    (executed : exec step start actions = some final) : holds final (tally step amount start actions) := by
  induction actions using List.reverseRecOn generalizing final with
  | nil => exact Option.some.inj executed ▸ initial
  | append_singleton actions action ih =>
    obtain ⟨middle, ran, moved⟩ := exec_concat.mp executed
    rw [tally_concat action ran]
    exact preserved middle _ action final ⟨actions, ran⟩ (ih ran) moved

end Cpp2Sky.Runs
