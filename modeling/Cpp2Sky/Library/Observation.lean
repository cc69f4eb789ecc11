import Cpp2Sky.Library.Runs

/-! What a run shows to the outside. Each step shows some events, and a machine
refines an abstract one when the events of its runs are runs of that one. -/

namespace Cpp2Sky.Runs

universe u v w x
variable {σ : Type u} {α : Type v} {ε : Type w} {τ : Type x}

/-- The events of a run in order, as far as its actions are enabled. -/
def shown (step : σ → α → Option σ) (shows : σ → α → List ε) : σ → List α → List ε
  | _, [] => []
  | state, action :: rest => shows state action ++ ((step state action).elim [] fun next => shown step shows next rest)

/-- A run of an abstract machine, with the events as its labels. -/
inductive Accepts (moves : τ → ε → τ → Prop) : τ → List ε → τ → Prop where
  | done {phase} : Accepts moves phase [] phase
  | next {phase event middle rest final} (first : moves phase event middle) (others : Accepts moves middle rest final) :
      Accepts moves phase (event :: rest) final

variable {step : σ → α → Option σ} {shows : σ → α → List ε} {moves : τ → ε → τ → Prop}

theorem shown_cons {state next : σ} {action : α} {rest : List α} (moved : step state action = some next) :
    shown step shows state (action :: rest) = shows state action ++ shown step shows next rest := by
  rw [shown, moved]
  rfl

theorem Accepts.one {phase final : τ} {event : ε} (first : moves phase event final) : Accepts moves phase [event] final :=
  .next first .done

theorem Accepts.append {phase middle final : τ} {first rest : List ε} (before : Accepts moves phase first middle)
    (behind : Accepts moves middle rest final) : Accepts moves phase (first ++ rest) final := by
  induction before with
  | done => exact behind
  | next moved _ ih => exact .next moved (ih behind)

theorem Accepts.split {phase final : τ} {first rest : List ε} (accepted : Accepts moves phase (first ++ rest) final) :
    ∃ middle, Accepts moves phase first middle ∧ Accepts moves middle rest final := by
  induction first generalizing phase with
  | nil => exact ⟨phase, .done, accepted⟩
  | cons event first ih =>
    cases accepted with
    | next moved others =>
      obtain ⟨middle, before, behind⟩ := ih others
      exact ⟨middle, .next moved before, behind⟩

section Simulation
variable {meets : σ → α → Prop} {start final : σ} {actions : List α}

/-- Forward simulation, where every step meets a condition. -/
theorem simulates {refines : σ → τ → Prop} {phase : τ}
    (simulated : ∀ state action next phase, refines state phase → meets state action → step state action = some next →
      ∃ after, Accepts moves phase (shows state action) after ∧ refines next after)
    (initial : refines start phase) (along : Along step meets start actions) (executed : exec step start actions = some final) :
    ∃ after, Accepts moves phase (shown step shows start actions) after ∧ refines final after := by
  induction actions generalizing start phase with
  | nil => exact ⟨phase, .done, Option.some.inj executed ▸ initial⟩
  | cons action rest ih =>
    obtain ⟨next, moved, remaining⟩ := exec_cons_some executed
    obtain ⟨middle, first, related⟩ := simulated start action next phase initial along.1 moved
    obtain ⟨after, others, last⟩ := ih related (along.2 next moved) remaining
    rw [shown_cons moved]
    exact ⟨after, first.append others, last⟩

/-- A machine refines one with steps of its own along a map of the states, where
each of its steps is matched by a run of that one. -/
theorem refines {β : Type w} {coarse : τ → β → Option τ} {allowed : τ → β → Prop} {abstract : σ → τ} {matching : σ → α → List β}
    {holds : σ → Prop}
    (matched : ∀ state action next, holds state → meets state action → step state action = some next →
      exec coarse (abstract state) (matching state action) = some (abstract next) ∧
        Along coarse allowed (abstract state) (matching state action) ∧ holds next)
    (initial : holds start) (along : Along step meets start actions) (executed : exec step start actions = some final) :
    exec coarse (abstract start) (shown step matching start actions) = some (abstract final) ∧
      Along coarse allowed (abstract start) (shown step matching start actions) ∧ holds final := by
  induction actions generalizing start with
  | nil =>
    obtain rfl := Option.some.inj executed
    exact ⟨rfl, True.intro, initial⟩
  | cons action rest ih =>
    obtain ⟨next, moved, remaining⟩ := exec_cons_some executed
    obtain ⟨ran, permitted, kept⟩ := matched start action next initial along.1 moved
    obtain ⟨others, behind, last⟩ := ih kept (along.2 next moved) remaining
    rw [shown_cons moved, exec_append, ran]
    exact ⟨others, permitted.append ran behind, last⟩

/-- What a state records of the events of each step, it records of the whole run. -/
theorem collects {β : Type x} {record : σ → List β} {reads : ε → Option β}
    (recorded : ∀ state action next, meets state action → step state action = some next →
      record next = record state ++ (shows state action).filterMap reads)
    (along : Along step meets start actions) (executed : exec step start actions = some final) :
    record final = record start ++ (shown step shows start actions).filterMap reads := by
  induction actions generalizing start with
  | nil => rw [Option.some.inj executed, shown, List.filterMap_nil, List.append_nil]
  | cons action rest ih =>
    obtain ⟨next, moved, remaining⟩ := exec_cons_some executed
    rw [shown_cons moved, List.filterMap_append, ← List.append_assoc, ← recorded start action next along.1 moved]
    exact ih (along.2 next moved) remaining

end Simulation

end Cpp2Sky.Runs
