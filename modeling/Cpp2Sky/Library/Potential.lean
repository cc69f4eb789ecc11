import Cpp2Sky.Library.Pool
import Cpp2Sky.Library.Runs

/-! Runs that use up a potential. Each step takes some of it and only certain
actions pay for more, so that what was paid bounds the length of every run, and
a machine that is left to itself comes to rest. -/

namespace Cpp2Sky.Runs

universe u v
variable {σ : Type u} {α : Type v} {step : σ → α → Option σ}
variable {potential : σ → Nat} {pays : α → Nat}

/-- What the steps of a run cost in all was there at the start or was paid. -/
theorem spent_le_paid {costs : α → Nat}
    (paid : ∀ state action next, step state action = some next → potential next + costs action ≤ potential state + pays action)
    {start final : σ} {actions : List α} (executed : exec step start actions = some final) :
    Pool.total costs actions + potential final ≤ potential start + Pool.total pays actions := by
  induction actions generalizing start with
  | nil => simp [Option.some.inj executed]
  | cons action rest ih =>
    obtain ⟨next, moved, remaining⟩ := exec_cons_some executed
    have first := paid start action next moved
    have others := ih remaining
    simp only [Pool.total, List.map_cons, List.sum_cons] at others ⊢
    omega

variable (paid : ∀ state action next, step state action = some next → potential next + 1 ≤ potential state + pays action)
include paid

/-- Where each step costs something, so many steps as were paid for can be taken. -/
theorem length_le_paid {start final : σ} {actions : List α} (executed : exec step start actions = some final) :
    actions.length + potential final ≤ potential start + Pool.total pays actions := by
  have each : Pool.total (fun _ : α => 1) actions = actions.length := by simp [Pool.total]
  exact each ▸ spent_le_paid paid executed

/-- Steps that pay nothing can be taken until none of them is enabled. -/
theorem settles {own : α → Prop} (free : ∀ action, own action → pays action = 0) (start : σ) :
    ∃ actions final, (∀ action ∈ actions, own action) ∧ exec step start actions = some final ∧
      ∀ action, own action → step final action = none := by
  induction left : potential start using Nat.strongRecOn generalizing start with
  | ind amount ih =>
    by_cases moves : ∃ action next, own action ∧ step start action = some next
    · obtain ⟨action, next, mine, moved⟩ := moves
      have used := paid start action next moved
      rw [free action mine] at used
      obtain ⟨actions, final, every, executed, still⟩ := ih (potential next) (by omega) next rfl
      refine ⟨action :: actions, final, List.forall_mem_cons.mpr ⟨mine, every⟩, ?_, still⟩
      rw [exec_cons, moved]
      exact executed
    · refine ⟨[], start, by simp, rfl, ?_⟩
      intro action mine
      apply Option.eq_none_iff_forall_ne_some.mpr
      intro next moved
      exact moves ⟨action, next, mine, moved⟩

end Cpp2Sky.Runs
